import PagePipes.Proofs.Database.Mirror
import PagePipes.Proofs.Database.RoundTrip
import PagePipes.Proofs.Resource.Decoded

set_option autoImplicit false

/-!
# Indexes stored twice

An index is stored resource by resource. When the turn of a resource comes, the pipes that it refers to
are stored under the keys that it names, so qualifying it once more leaves it as it is, whatever other
pipes of these names the database holds. When the index is stored again, each of its resources is found
under its key; it is still the same if its labels are distinct and its spec is read back.
-/
namespace PagePipes.Database

variable {db middle next : Database} {ix : Index} {k id : Key} {keys ids : List Key}
  {r q : Resource} {u : Uuid} {fresh : Nat → Uuid} {n : Nat}

/-! ## Keys of rows -/

/-- No two stored pipes have one key, and no two stored resources. -/
structure Keyed (db : Database) : Prop where
  pipes : (db.pipes.map (·.key)).Nodup
  resources : (db.resources.map (·.key)).Nodup

namespace Keyed

theorem createResource (hdb : db.Keyed) (h : db.createResource u r = .ok (next, id)) : next.Keyed := by
  obtain ⟨-, q, -, rfl, ⟨rfl, -⟩ | ⟨hfresh, hcreated⟩⟩ := createResource_eq_ok h
  · exact hdb
  · obtain ⟨subject, -, hresources, hpipes⟩ := hcreated.exists_row
    constructor
    · obtain hpipes | ⟨p, -, hnew, hpipes⟩ := hpipes
      · exact hpipes ▸ hdb.pipes
      · rw [hpipes, List.map_append, List.map_singleton, ← List.concat_eq_append]
        exact hdb.pipes.concat fun hmem => hnew (List.mem_map.1 hmem)
    · rw [hresources, List.map_append, List.map_singleton, ← List.concat_eq_append]
      refine hdb.resources.concat fun hmem => ?_
      obtain ⟨row, hrow, hkey⟩ := List.mem_map.1 hmem
      exact hfresh row hrow hkey

theorem createAll (hdb : db.Keyed) (h : createAll ix fresh n db keys = .ok (next, ids)) : next.Keyed :=
  createAll_keeps hdb (fun _ _ _ _ _ _ _ _ hdb h => hdb.createResource h) h

theorem putIndex (hdb : db.Keyed) (h : db.putIndex fresh ix = .ok (next, ids)) : next.Keyed := by
  obtain ⟨out, -, -, hall⟩ := putIndex_eq_ok.1 h
  exact hdb.createAll hall

theorem leads {c : Change} (hdb : db.Keyed) (h : c.Leads db next) : next.Keyed := by
  cases h with
  | createResource h => exact hdb.createResource h
  | deleteResource h =>
    obtain ⟨row, -, hdeleted⟩ := deleteResource_eq_ok h
    have hresources : ((db.resources.filter (· ≠ row)).map (·.key)).Nodup :=
      hdb.resources.sublist (List.filter_sublist.map _)
    cases hdeleted with
    | pipe => exact ⟨hdb.pipes.sublist (List.filter_sublist.map _), hresources⟩
    | view => exact ⟨hdb.pipes, hresources⟩
    | rule => exact ⟨hdb.pipes, hresources⟩
  | putIndex hix h => exact hdb.putIndex h
  | @setDisabled _ disabled _ t h =>
    obtain ⟨-, rfl⟩ := setDisabled_eq_ok.1 h
    have hkeys : (db.pipes.map fun r => if r.key = t then { r with disabled } else r).map (·.key) =
        db.pipes.map (·.key) := by
      rw [List.map_map]
      refine List.map_congr_left fun row _ => ?_
      dsimp only [Function.comp_apply]
      split <;> rfl
    exact ⟨hkeys ▸ hdb.pipes, hdb.resources⟩
  | createRule h =>
    obtain ⟨conditions, links, rfl⟩ := createRule_frame h
    exact ⟨hdb.pipes, hdb.resources⟩
  | deleteRule h =>
    obtain ⟨conditions, links, rfl⟩ := deleteRule_frame h
    exact ⟨hdb.pipes, hdb.resources⟩
  | createView h =>
    obtain ⟨views, viewPipes, objects, rfl⟩ := createView_frame h
    exact ⟨hdb.pipes, hdb.resources⟩
  | trigger h =>
    obtain ⟨plans, rfl⟩ := trigger_frame h
    exact ⟨hdb.pipes, hdb.resources⟩
  | exchange h =>
    obtain ⟨events, objects, plans, rfl⟩ := exchange_frame h
    exact ⟨hdb.pipes, hdb.resources⟩

end Keyed

theorem keyed_ofChanges (cs : List Change) : (ofChanges cs).Keyed := by
  induction cs using List.reverseRecOn with
  | nil => exact ⟨List.nodup_nil, List.nodup_nil⟩
  | append_singleton cs c ih =>
    rw [ofChanges_concat]
    obtain ⟨-, hsame⟩ | hleads := Change.after_cases (ofChanges cs) c
    · rwa [hsame]
    · exact ih.leads hleads

/-! ## Runs over the keys of an index -/

/-- A database that resources of some keys of an index were added to, or none. -/
structure Grown (ix : Index) (keys : List Key) (db next : Database) : Prop where
  pipes : ∀ row ∈ db.pipes, row ∈ next.pipes
  resources : ∀ row ∈ db.resources, row ∈ next.resources
  newPipes : ∀ row ∈ next.pipes, row ∈ db.pipes ∨ row.key ∈ ix.pipes
  newResources : ∀ row ∈ next.resources, row ∈ db.resources ∨ row.key ∈ keys

theorem Grown.refl (ix : Index) (keys : List Key) (db : Database) : Grown ix keys db db :=
  ⟨fun _ => id, fun _ => id, fun _ => .inl, fun _ => .inl⟩

theorem Grown.createResource (hg : Grown ix keys db middle) (hc : ix.Coherent) (hk : k ∈ keys)
    (hr : ix.resources[k]? = some r) (hpointed : r.Pointed)
    (h : middle.createResource u r = .ok (next, id)) : Grown ix keys db next := by
  obtain ⟨-, q, hq, -, ⟨rfl, -⟩ | ⟨-, hcreated⟩⟩ := createResource_eq_ok h
  · exact hg
  obtain rfl := qualifyResource_eq_self hpointed hq
  obtain rfl := hc.key_eq hr
  obtain ⟨subject, -, hresources, hpipes⟩ := hcreated.exists_row
  obtain ⟨newPipes, hpipes, hnew⟩ : ∃ rows, next.pipes = middle.pipes ++ rows ∧
      ∀ row ∈ rows, row.key ∈ ix.pipes := by
    obtain hpipes | ⟨p, hp, -, hpipes⟩ := hpipes
    · exact ⟨[], by rw [hpipes, List.append_nil], by simp⟩
    · exact ⟨_, hpipes, List.forall_mem_singleton.2
        (hc.mem_pipes.2 ⟨q, hr, by rw [Resource.kind, hp]; rfl⟩)⟩
  constructor
  case pipes => exact fun row hrow => hpipes ▸ List.mem_append_left _ (hg.pipes row hrow)
  case resources => exact fun row hrow => hresources ▸ List.mem_append_left _ (hg.resources row hrow)
  case newPipes =>
    rw [hpipes]
    exact List.forall_mem_append.2 ⟨hg.newPipes, fun row hrow => .inr (hnew row hrow)⟩
  case newResources =>
    rw [hresources]
    exact List.forall_mem_append.2 ⟨hg.newResources, List.forall_mem_singleton.2 (.inr hk)⟩

/-- An index whose resources are stored as they are: they refer to its pipes by their keys. -/
structure Pinned (ix : Index) : Prop where
  coherent : ix.Coherent
  pointed : ∀ {k : Key} {r : Resource}, ix.resources[k]? = some r →
    r.Pointed ∧ ∀ t ∈ r.references, t ∈ ix.pipes

theorem pinned_of_qualified {out : Index} (hc : ix.Coherent) (h : ix.qualified = .ok out) :
    Pinned out :=
  ⟨hc.qualified h, Index.pointed_of_qualified hc h⟩

theorem Pinned.grown (hx : Pinned ix) (h : createAll ix fresh n db keys = .ok (next, ids)) :
    Grown ix keys db next :=
  createAll_keeps (.refl ix keys db) (fun _ hk _ hr _ _ _ _ hg h =>
    hg.createResource hx.coherent hk hr ((hx.pointed hr).1) h) h

theorem Pinned.ids_eq (hx : Pinned ix) (hkeys : ∀ k ∈ keys, k ∈ ix.resources)
    (h : createAll ix fresh n db keys = .ok (next, ids)) : ids = keys := by
  induction keys generalizing db n ids with
  | nil =>
    cases h
    rfl
  | cons k keys ih =>
    obtain ⟨hk, hkeys⟩ := List.forall_mem_cons.1 hkeys
    obtain ⟨r, hr⟩ := Lookup.exists_of_mem hk
    obtain ⟨middle, id, more, hmiddle, hmore, rfl⟩ := createAll_eq_ok hr h
    obtain ⟨-, q, hq, rfl, -⟩ := createResource_eq_ok hmiddle
    rw [qualifyResource_eq_self (hx.pointed hr).1 hq, hx.coherent.key_eq hr, ih hkeys hmore]

/-! ## Where a resource stands -/

/-- What storing an index does with one of its resources. Those that it refers to come first. With them
and what was there before, qualifying it leaves it as it is. In the end its key has a row that says it,
be it one that was there and is read as the resource or the one that was written for it. -/
structure Puts (out : Index) (fresh : Nat → Uuid) (db next : Database) (k : Key) (r : Resource) :
    Prop where
  before : ∀ t ∈ r.references, t ∈ out.emittedBefore k
  same : ∃ middle, createAll out fresh 0 db (out.emittedBefore k) = .ok (middle, out.emittedBefore k) ∧
    (∀ t ∈ r.references, middle.Stores t) ∧ middle.qualifyResource r = .ok r
  stands : ∃ row ∈ next.resources, row.key = k ∧ ((row ∈ db.resources ∧ row.resource = .ok r) ∨
    ∃ subject : Subject, subject.kind = r.kind ∧ row = r.row subject)

theorem Grown.row_of_createResource (hg : Grown ix keys db middle) (hnew : r.key ∉ keys)
    (hpointed : r.Pointed) (h : middle.createResource u r = .ok (next, id)) :
    ∃ row ∈ next.resources, row.key = r.key ∧ ((row ∈ db.resources ∧ row.resource = .ok r) ∨
      ∃ subject : Subject, subject.kind = r.kind ∧ row = r.row subject) := by
  obtain ⟨-, q, hq, rfl, hcase⟩ := createResource_eq_ok h
  obtain rfl := qualifyResource_eq_self hpointed hq
  obtain ⟨rfl, row, hrow, hkey, hreads⟩ | ⟨-, hcreated⟩ := hcase
  · have hold : row ∈ db.resources := (hg.newResources row hrow).resolve_right (hkey ▸ hnew)
    exact ⟨row, hrow, hkey, .inl ⟨hold, hreads⟩⟩
  · obtain ⟨subject, hkind, hresources, -⟩ := hcreated.exists_row
    exact ⟨q.row subject, by simp [hresources], rfl, .inr ⟨subject, hkind, rfl⟩⟩

theorem Pinned.puts (hx : Pinned ix)
    (h : createAll ix fresh 0 db ix.traversal.emitted = .ok (next, ids)) (hk : k ∈ ix.traversal.emitted)
    (hr : ix.resources[k]? = some r) : Puts ix fresh db next k r := by
  obtain ⟨after, hsplit⟩ := Index.emitted_split hk
  have hnew : k ∉ ix.emittedBefore k := fun hmem => by
    simpa using List.mem_takeWhile_imp hmem
  rw [hsplit] at h
  obtain ⟨middle, m, done, more, hdone, hmore, -⟩ := createAll_append h
  obtain ⟨made, id, rest, hmade, hrest, -⟩ := createAll_eq_ok hr hmore
  obtain rfl := hx.ids_eq (fun j hj => Index.mem_resources_of_emitted (Index.mem_emitted_of_before hj)) hdone
  obtain ⟨hpointed, hrefs⟩ := hx.pointed hr
  have hsame : middle.qualifyResource r = .ok r := by
    obtain ⟨-, q, hq, -⟩ := createResource_eq_ok hmade
    rwa [qualifyResource_eq_self hpointed hq] at hq
  have hkey := hx.coherent.key_eq hr
  obtain ⟨row, hrow, hrowkey, hcase⟩ :=
    (hx.grown hdone).row_of_createResource (hkey ▸ hnew) hpointed hmade
  refine ⟨fun t ht => ?_, ⟨middle, hdone, fun t ht => ?_, hsame⟩,
    row, (hx.grown hrest).resources row hrow, hrowkey.trans hkey, hcase⟩
  · have hq := hpointed.1 t ht
    exact Index.mem_emittedBefore_of_resolve hx.coherent hk hr ht
      ((Index.resolve_qualified hq).2 ⟨hrefs t ht, rfl⟩)
  · obtain ⟨_, -, hresolves⟩ := resolves_of_mem_references (qualifyResource_eq_ok hsame) ht
    exact hresolves.stores

/-! ## Storing the index again -/

/-- The labels of a resource are distinct, and the specs in the rows of its key are read as its spec. -/
structure DecodesBack (db : Database) (k : Key) (r : Resource) : Prop where
  labels : r.metadata.labels.Nodup
  resource : (·.resource.spec) <$> db.storedResource k = .ok r.spec
  pipe : ∀ p ∈ r.pipe?, db.pipe k = .ok p

/-- A row that was written for a resource is read as the resource when its spec is. -/
theorem resource_of_spec {subject : Subject} (hname : Key.validateName r.name = .ok ())
    (hlabels : r.metadata.labels.Nodup) (h : (r.row subject).resource = .ok q)
    (hspec : q.spec = r.spec) : q = r := by
  obtain ⟨hversion, hmetadata⟩ := ResourceRow.metadata_of_resource h
  obtain ⟨version, ⟨name, description, labels⟩, spec⟩ := r
  obtain ⟨version', metadata', spec'⟩ := q
  dsimp only [Resource.row, Resource.key, Key.exact, Resource.name] at *
  rw [hversion, hmetadata, hspec, Key.lower_of_validName hname, distinct_eq_self.2 hlabels]

theorem Puts.row_reads (hputs : Puts ix fresh db next k r) (hkeyed : next.Keyed)
    (hname : Key.validateName r.name = .ok ()) (hk : k.isQualified = true) (hback : DecodesBack next k r) :
    ∃ row ∈ next.resources, row.key = k ∧ row.resource = .ok r := by
  obtain ⟨row, hrow, rfl, ⟨-, hreads⟩ | ⟨subject, -, rfl⟩⟩ := hputs.stands
  · exact ⟨row, hrow, rfl, hreads⟩
  · obtain ⟨s, hstored, hspec⟩ := Result.map_eq_ok.1 hback.resource
    rw [storedResource_eq hkeyed.resources hrow hk] at hstored
    obtain ⟨q, hreads, rfl⟩ := Result.map_eq_ok.1 hstored
    cases resource_of_spec hname hback.labels hreads hspec
    exact ⟨_, hrow, rfl, hreads⟩

/-- A resource that was read is read back when its row keeps it. -/
theorem Puts.decodesBack (hputs : Puts ix fresh db next k r) (hkeyed : next.Keyed)
    (hk : k.isQualified = true) (hread : r.AsRead) (hvalid : r.validate = .ok ()) (hback : r.ReadsBack)
    (hpipe : ∀ p ∈ r.pipe?, next.pipe k = .ok p) : DecodesBack next k r := by
  refine ⟨hback.labels, ?_, hpipe⟩
  obtain ⟨middle, -, -, hsame⟩ := hputs.same
  have hreads : ∃ row ∈ next.resources, row.key = k ∧ row.resource = .ok r := by
    obtain ⟨row, hrow, rfl, ⟨-, hreads⟩ | ⟨subject, hkind, rfl⟩⟩ := hputs.stands
    · exact ⟨row, hrow, rfl, hreads⟩
    · refine ⟨_, hrow, rfl, (Resource.resource_row_eq_ok hread ?_ (fun t ht => ?_) hkind).2 hback⟩
      · exact (Resource.validate_eq_ok.1 hvalid).2.1
      · obtain ⟨_, -, hresolves⟩ := resolves_of_mem_references (qualifyResource_eq_ok hsame) ht
        exact hresolves.valid
  obtain ⟨row, hrow, rfl, hreads⟩ := hreads
  rw [storedResource_eq hkeyed.resources hrow hk, hreads]
  rfl

theorem indexes_of_pipe {row : PipeRow} {p : Pipe} (hc : ix.Coherent) (hp : ix.pipes[row.key]? = some p)
    (hread : row.pipe = .ok p) : row.Indexes (.ofSpec row.key.name (.pipe p)) := by
  obtain ⟨r, hr, hspec⟩ := hc.getElem?_pipes.1 hp
  obtain ⟨-, hname, hvalid⟩ := Resource.validate_eq_ok.1 (hc.valid hr)
  have hkey := hc.key_eq hr
  have hrow : row.key.name = r.name := by rw [← hkey]; rfl
  refine ⟨p, hread, rfl, Resource.validate_eq_ok.2 ⟨rfl, ?_, hspec ▸ hvalid⟩, ?_⟩
  · rw [hrow]
    exact hname
  · rw [hrow, ← hkey, Resource.key, Resource.key, hspec]
    rfl

/-- A resource stays as it is when it is qualified in the end, although there may be more pipes of the
names in question by then: it has keys for all that it refers to. -/
theorem Puts.qualifyResource_eq (hputs : Puts ix fresh db next k r) (hx : Pinned ix) (hdb : db.Keyed)
    (hnext : next.Keyed) (hg : Grown ix keys db next) (hr : ix.resources[k]? = some r)
    (hpipes : ∀ (t : Key) (p : Pipe), ix.pipes[t]? = some p → next.pipe t = .ok p) :
    next.qualifyResource r = .ok r := by
  obtain ⟨middle, hmiddle, -, hq⟩ := hputs.same
  obtain ⟨hrows, hrr⟩ := (qualifyResource_iff (hdb.createAll hmiddle).pipes).1 hq
  refine (qualifyResource_iff hnext.pipes).2 ⟨fun row hrow => ?_, hrr.imp fun t ht s hs => ?_⟩
  · obtain ⟨hrow, hnamed⟩ := mem_rowsNamed.1 hrow
    obtain hold | hnew := hg.newPipes row hrow
    · exact hrows row (mem_rowsNamed.2 ⟨(hx.grown hmiddle).pipes row hold, hnamed⟩)
    · obtain ⟨p, hp⟩ := Lookup.exists_of_mem hnew
      exact ⟨_, indexes_of_pipe hx.coherent hp (pipe_eq hnext.pipes hrow ▸ hpipes _ _ hp)⟩
  · have hqualified := (hx.pointed hr).1.1 t ht
    obtain rfl := hs.exact hqualified
    obtain ⟨p, hp⟩ := Lookup.exists_of_mem ((hx.pointed hr).2 s ht)
    exact ⟨stores_of_pipe (hpipes s p hp), rfl, fun _ => rfl, fun hbare => by simp [hqualified] at hbare⟩

theorem createAll_of_each (h : ∀ k ∈ keys, ∃ r, ix.resources[k]? = some r ∧
    ∀ u, db.createResource u r = .ok (db, k)) : createAll ix fresh n db keys = .ok (db, keys) := by
  induction keys generalizing n with
  | nil => rfl
  | cons k keys ih =>
    obtain ⟨⟨r, hr, hk⟩, hkeys⟩ := List.forall_mem_cons.1 h
    exact createAll_cons hr (hk _) (ih hkeys)

/-- Every resource is found under its key, so storing all of them changes nothing. -/
theorem Pinned.createAll_again {other : Nat → Uuid} (hx : Pinned ix) (hdb : db.Keyed) (hnext : next.Keyed)
    (hg : Grown ix ids db next) (hkeys : ∀ k ∈ keys, k ∈ ix.resources)
    (hputs : ∀ (k : Key) (r : Resource), ix.resources[k]? = some r → Puts ix fresh db next k r)
    (hback : ∀ (k : Key) (r : Resource), ix.resources[k]? = some r → DecodesBack next k r) :
    createAll ix other n next keys = .ok (next, keys) := by
  have hpipes : ∀ (t : Key) (p : Pipe), ix.pipes[t]? = some p → next.pipe t = .ok p := fun t p hp => by
    obtain ⟨r, hr, hspec⟩ := hx.coherent.getElem?_pipes.1 hp
    exact (hback t r hr).pipe p (by rw [Resource.pipe?, hspec]; rfl)
  refine createAll_of_each fun k hk => ?_
  obtain ⟨r, hr⟩ := Lookup.exists_of_mem (hkeys k hk)
  have hvalid := hx.coherent.valid hr
  have hrkey := hx.coherent.key_eq hr
  obtain ⟨row, hrow, hkey, hreads⟩ := (hputs k r hr).row_reads hnext
    (Resource.validate_eq_ok.1 hvalid).2.1 (hx.coherent.isQualified (Lookup.mem hr)) (hback k r hr)
  have hagain := (hputs k r hr).qualifyResource_eq hx hdb hnext hg hr hpipes
  refine ⟨r, hr, fun u => ?_⟩
  rw [← hrkey]
  exact (createResource_of_stored hnext.resources hvalid hagain hrow (hkey.trans hrkey.symm)).2 hreads

/-- An index that was stored after any changes answers the keys of the qualified index in the order of
its traversal. Each resource of it stands under its own key, as it was qualified: qualifying it against the
database has changed nothing. When the labels of every resource are distinct and every stored spec is
read back, storing the index again answers the same and changes nothing. -/
theorem stored_index_repeats (cs : List Change) (hbuilt : ix.Built)
    (h : (ofChanges cs).putIndex fresh ix = .ok (next, ids)) :
    ∃ out, ix.qualified = .ok out ∧ ids = out.traversal.emitted ∧ ids.Nodup ∧
      (∀ k, k ∈ ids ↔ k ∈ out.resources) ∧
      (∀ (k : Key) (r : Resource), out.resources[k]? = some r → Puts out fresh (ofChanges cs) next k r) ∧
      ((∀ (k : Key) (r : Resource), out.resources[k]? = some r → DecodesBack next k r) →
        ∀ other, next.putIndex other ix = .ok (next, ids)) := by
  obtain ⟨out, hout, hcycle, hall⟩ := putIndex_eq_ok.1 h
  have hx := pinned_of_qualified hbuilt.coherent hout
  have hids : ids = out.traversal.emitted := hx.ids_eq (fun _ => Index.mem_resources_of_emitted) hall
  have hmem : ∀ k, k ∈ ids ↔ k ∈ out.resources := fun k =>
    hids ▸ Index.mem_emitted_of_no_cycle hcycle
  have hputs : ∀ (k : Key) (r : Resource), out.resources[k]? = some r →
      Puts out fresh (ofChanges cs) next k r := fun k r hr =>
    hx.puts hall (hids ▸ (hmem k).2 (Lookup.mem hr)) hr
  refine ⟨out, hout, hids, hids ▸ Graph.order_nodup, hmem, hputs, fun hback other => ?_⟩
  have hdb := keyed_ofChanges cs
  refine putIndex_eq_ok.2 ⟨out, hout, hcycle, ?_⟩
  rw [← hids]
  exact hx.createAll_again hdb (hdb.putIndex h) (hx.grown hall) (fun k hk => (hmem k).1 hk) hputs hback

/-- Another title than that of the index. -/
def otherTitle : List Change :=
  [.createResource ⟨1⟩ (.ofSpec "title" (.pipe ⟨[.ofKind .document], { nullable := true }⟩))]

def pageOfTitle : List Resource :=
  [{ Resource.ofSpec "title" (.pipe ⟨[.ofKind .document], {}⟩) with
      metadata := { name := "title", labels := ["page", "head"] } },
    .ofSpec "page" (.pipe ⟨[Action.pipe (.bare "title")], {}⟩)]

theorem page_of_title_repeats : ∃ ix out next ids, Change.indexOf pageOfTitle = .ok ix ∧
    ix.qualified = .ok out ∧ (ofChanges otherTitle).putIndex (fun n => ⟨n⟩) ix = .ok (next, ids) ∧
    ids.length = 2 ∧ (∀ (k : Key) (r : Resource), out.resources[k]? = some r → DecodesBack next k r) ∧
    ∀ other, next.putIndex other ix = .ok (next, ids) := by
  have hrun : (Change.indexOf pageOfTitle).toOption.any (fun ix =>
      ix.qualified.toOption.any fun out =>
        ((ofChanges otherTitle).putIndex (fun n => ⟨n⟩) ix).toOption.any fun put =>
          decide (put.2.length = 2 ∧ ∀ e ∈ out.resources.toList, e.2.metadata.labels.Nodup ∧
            ∀ p ∈ e.2.pipe?, (p.reread.reread = p ∧ p.toJson.depth < 127) ∧ put.1.pipe e.1 = .ok p)) =
      true := by
    decide +kernel
  obtain ⟨ix, hix, hrun⟩ := Result.exists_ok_of_any hrun
  obtain ⟨out, hout, hrun⟩ := Result.exists_ok_of_any hrun
  obtain ⟨⟨next, ids⟩, h, hrun⟩ := Result.exists_ok_of_any hrun
  obtain ⟨hlength, hall⟩ := of_decide_eq_true hrun
  obtain ⟨hbuilt, hmem⟩ := Change.built_indexOf hix
  obtain ⟨out', hout', -, -, -, hputs, hagain⟩ := stored_index_repeats otherTitle hbuilt h
  cases hout.symm.trans hout'
  have hread : ∀ r ∈ pageOfTitle, r.AsRead := by
    simp only [pageOfTitle, List.mem_cons, List.not_mem_nil, or_false]
    rintro r (rfl | rfl)
    · exact List.forall_mem_singleton.2 (Action.readable_ofKind _)
    · exact List.forall_mem_singleton.2 (Action.readable_ofKind _).setKey
  have hc := hbuilt.coherent.qualified hout
  have hkeyed : next.Keyed := (keyed_ofChanges otherTitle).putIndex h
  have hback : ∀ (k : Key) (r : Resource), out.resources[k]? = some r → DecodesBack next k r := by
    intro k r hr
    obtain ⟨hlabels, hpipes⟩ := hall (k, r) (Std.ExtTreeMap.mem_toList_iff_getElem?_eq_some.2 hr)
    have hr' : r.AsRead := Sound.asRead_of_qualified hbuilt.coherent
      (fun k r hr => hread r (hmem k r hr)) hout hr
    have hreads : r.ReadsBack :=
      ⟨hlabels, fun p hp => (hpipes p (by rw [Resource.pipe?, hp]; rfl)).1⟩
    exact (hputs k r hr).decodesBack hkeyed (hc.isQualified (Lookup.mem hr)) hr' (hc.valid hr) hreads
      fun p hp => (hpipes p hp).2
  exact ⟨ix, out, next, ids, hix, hout, h, hlength, hback, hagain hback⟩

end PagePipes.Database
