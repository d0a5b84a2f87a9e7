import PagePipes.Proofs.Database.Effects
import PagePipes.Proofs.Database.Removal
import PagePipes.Proofs.Database.StoredViews

set_option autoImplicit false

/-!
# The schema follows the stored views

For each stored view there are its links, its table, its SQL view and the SQL view of its alias, and
there are no other links and SQL views. Removing the resource of a view takes away what was made for
this view alone, but for its table, and its alias is free again.
-/
namespace PagePipes

/-- The row stands for a stored view, and says the same of it. -/
structure ResourceRow.StandsForView (views : List ViewRow) (row : ResourceRow) (u : Uuid) : Prop where
  loads : ∃ r, row.resource = .ok r
  stored : ∃ viewRow ∈ views, viewRow.uuid = u ∧ viewRow.spec = row.spec

/-- An SQL view through which the rows of a stored view are seen. -/
def SchemaObject.shows (u : Uuid) : SchemaObject → Bool
  | .table _ _ _ => false
  | .view v _ => v == u
  | .aliasView _ v => v == u

namespace Database

variable {db next : Database} {u : Uuid} {k : Key} {row : ResourceRow} {cs : List Change}

/-! ## Resources of views -/

structure SoundViewResources (db : Database) : Prop where
  stands : ∀ row ∈ db.resources, ∀ u, row.subject = .view u → row.StandsForView db.views u
  distinct : ∀ row ∈ db.resources, ∀ other ∈ db.resources, ∀ u,
    row.subject = .view u → other.subject = .view u → row = other

namespace SoundViewResources

theorem empty : SoundViewResources .empty :=
  ⟨by simp [Database.empty], by simp [Database.empty]⟩

theorem of_subset (hq : SoundViewResources db) (hviews : db.views ⊆ next.views)
    (hresources : next.resources = db.resources) : SoundViewResources next := by
  refine ⟨fun row hrow u hu => ?_, hresources ▸ hq.distinct⟩
  obtain ⟨hloads, viewRow, hview, hsame⟩ := hq.stands row (hresources ▸ hrow) u hu
  exact ⟨hloads, viewRow, hviews hview, hsame⟩

theorem concat (hq : SoundViewResources db) (hviews : db.views ⊆ next.views)
    (hresources : next.resources = db.resources ++ [row])
    (hnew : ∀ u, row.subject = .view u → row.StandsForView next.views u ∧ ∀ r ∈ db.views, r.uuid ≠ u) :
    SoundViewResources next := by
  have hother : ∀ r ∈ db.resources, ∀ u, r.subject = .view u → row.subject ≠ .view u :=
    fun r hr u hu hrow => by
      obtain ⟨-, viewRow, hview, heq, -⟩ := hq.stands r hr u hu
      exact (hnew u hrow).2 viewRow hview heq
  constructor
  · rw [hresources]
    refine List.forall_mem_append.2 ⟨fun r hr u hu => ?_, List.forall_mem_singleton.2 fun u hu => (hnew u hu).1⟩
    obtain ⟨hloads, viewRow, hview, hsame⟩ := hq.stands r hr u hu
    exact ⟨hloads, viewRow, hviews hview, hsame⟩
  · simp only [hresources, List.mem_append, List.mem_singleton]
    rintro r (hr | rfl) s (hs | rfl) u hru hsu
    · exact hq.distinct r hr s hs u hru hsu
    · exact absurd hsu (hother r hr u hru)
    · exact absurd hru (hother s hs u hsu)
    · rfl

/-- Other resources stand for other views, so they stay when a resource goes with its view. -/
theorem deleted (hq : SoundViewResources db) (hrow : row ∈ db.resources) (h : Deleted db row next) :
    SoundViewResources next := by
  have hkept : ∀ r ∈ db.resources.filter (· ≠ row), r ∈ db.resources := fun r hr =>
    (List.mem_filter.1 hr).1
  cases h with
  | pipe | rule =>
    exact ⟨fun r hr => hq.stands r (hkept r hr), fun r hr s hs => hq.distinct r (hkept r hr) s (hkept s hs)⟩
  | @view u v viewRow hsubject =>
    refine ⟨fun r hr w hw => ?_, fun r hr s hs => hq.distinct r (hkept r hr) s (hkept s hs)⟩
    obtain ⟨hloads, other, hother, hu, hsame⟩ := hq.stands r (hkept r hr) w hw
    refine ⟨hloads, other, List.mem_filter.2 ⟨hother, decide_eq_true ?_⟩, hu, hsame⟩
    rintro rfl
    refine of_decide_eq_true (List.mem_filter.1 hr).2 ?_
    exact hq.distinct r (hkept r hr) row hrow _ hw (hu ▸ hsubject)

/-- The row of a resource of a view reads, as its references are those of a stored view. -/
theorem standsForView {v : View} {q : Resource} {stored : StoredView} (hq : q.spec = .view v)
    (hname : Key.validateName q.name = .ok ()) (hkeys : ∀ k ∈ v.references, k.Valid)
    (h : db.insertView u v = .ok (next, stored)) : (q.row (.view u)).StandsForView next.views u := by
  obtain ⟨-, -, -, -, points, c, tables, -, -, -, rfl⟩ := insertView_eq_ok h
  have hspec : (q.row (.view u)).spec = (Spec.view v).toJson.compact := by rw [Resource.row, hq]
  have hreads := ResourceRow.resource_eq hspec rfl hname (s := .view v) hkeys
    (v.depth_toJson.trans_lt (by decide))
  refine ⟨⟨_, hreads⟩, _, List.mem_append_right _ (List.mem_singleton_self _), rfl, ?_⟩
  exact hspec.symm

theorem created {r q : Resource} (hq : SoundViewResources db) (hvalid : r.validate = .ok ())
    (hrq : Resource.Repointed db.Resolves r q) (h : Created db u q next) : SoundViewResources next := by
  cases h with
  | @pipe p hspec =>
    have hviews : (db.insertPipe q.key p).views = db.views := by
      obtain ⟨pipes, h⟩ := insertPipe_frame db q.key p
      rw [h]
    exact hq.concat (fun row hrow => hviews.symm ▸ hrow) rfl fun u hu => by cases hu
  | rule hspec => exact hq.concat (List.Subset.refl _) rfl fun u hu => by cases hu
  | @view v viewed stored hspec hv =>
    have hname : Key.validateName q.name = .ok () := by
      rw [Resource.name, hrq.metadata]
      exact (Resource.validate_eq_ok.1 hvalid).2.1
    have hkeys : ∀ k ∈ v.references, k.Valid := fun k hk => by
      have hmem : k ∈ q.references := by rwa [Resource.references, hspec]
      obtain ⟨_, -, hresolves⟩ := resolves_of_mem_references hrq hmem
      exact hresolves.valid
    obtain ⟨-, hfresh, -, -, points, c, tables, -, -, -, hmade⟩ := insertView_eq_ok hv
    have hviews : db.views ⊆ viewed.views := hmade ▸ List.subset_append_left _ _
    have hstands := standsForView hspec hname hkeys hv
    refine hq.concat hviews rfl fun w hw => ?_
    cases hw
    exact ⟨hstands, hfresh⟩

theorem step (hq : SoundViewResources db) (h : Step db next) : SoundViewResources next := by
  cases h with
  | createResource hread h =>
    obtain ⟨hvalid, q, hrq, -, ⟨rfl, -⟩ | ⟨-, hcreated⟩⟩ := createResource_eq_ok h
    · exact hq
    · exact hq.created hvalid (qualifyResource_eq_ok hrq) hcreated
  | deleteResource h =>
    obtain ⟨row, hrow, hdeleted⟩ := deleteResource_eq_ok h
    exact hq.deleted hrow hdeleted
  | setDisabled h =>
    obtain ⟨-, rfl⟩ := setDisabled_eq_ok.1 h
    exact hq.of_subset (List.Subset.refl _) rfl
  | createRule h =>
    obtain ⟨conditions, links, rfl⟩ := createRule_frame h
    exact hq.of_subset (List.Subset.refl _) rfl
  | deleteRule h =>
    obtain ⟨conditions, links, rfl⟩ := deleteRule_frame h
    exact hq.of_subset (List.Subset.refl _) rfl
  | createView h =>
    obtain ⟨-, w, -, -, h⟩ := createView_eq_ok h
    obtain ⟨-, -, -, -, points, c, tables, -, -, -, rfl⟩ := insertView_eq_ok h
    exact hq.of_subset (List.subset_append_left _ _) rfl
  | trigger h =>
    obtain ⟨plans, rfl⟩ := trigger_frame h
    exact hq.of_subset (List.Subset.refl _) rfl
  | exchange h =>
    obtain ⟨events, objects, plans, rfl⟩ := exchange_frame h
    exact hq.of_subset (List.Subset.refl _) rfl

end SoundViewResources

theorem soundViewResources_ofChanges (h : ∀ c ∈ cs, c.AsRead) : SoundViewResources (ofChanges cs) :=
  ofChanges_keeps h .empty fun _ hq hstep => hq.step hstep

/-! ## What there is for a stored view -/

/-- A stored view is valid and qualified. It is linked to its pipes and nothing else, it has a table
and an SQL view with the columns of its collection, and its alias shows the SQL view. -/
structure Serves (db : Database) (row : ViewRow) (v : View) : Prop where
  reads : row.view = .ok v
  valid : v.validate = .ok ()
  qualified : ∀ k ∈ v.references, k.isQualified = true
  linked : db.viewPipes.filter (·.1 == row.uuid) = v.references.map (row.uuid, ·)
  collection : ∃ points c, db.points v = .ok points ∧
    Sql.Collection.ofView row.uuid v row.digest points = .ok c ∧
    (tablesOf db.objects).filter (·.1 == c.tableName) = [(c.tableName, c.columns)] ∧
    .view row.uuid c.columns ∈ db.objects
  aliasView : ∀ a, v.aliasName = some a → .aliasView a row.uuid ∈ db.objects

/-- There is what there has to be for every stored view, and nothing else: the links lead from stored
views, the SQL views are those of the stored views and of their aliases, and no alias comes twice. -/
structure FollowsViews (db : Database) : Prop where
  serves : ∀ row ∈ db.views, ∃ v, db.Serves row v
  uuids : (db.views.map (·.uuid)).Nodup
  links : ∀ e ∈ db.viewPipes, ∃ row ∈ db.views, row.uuid = e.1
  sqlViews : (sqlViewsOf db.objects).map (·.1) = db.views.map (·.uuid)
  aliasViews : aliasViewsOf db.objects = db.aliases
  aliasNames : (db.aliases.map (·.1)).Nodup

/-- The collection of a stored view has its table and its columns. -/
theorem Sound.collection_of_view (hs : db.Sound) {row : ViewRow} (hrow : row ∈ db.views) {v : View}
    (hv : row.view = .ok v) : ∃ points c, db.points v = .ok points ∧
      Sql.Collection.ofView row.uuid v row.digest points = .ok c ∧
      c.tableName = row.tableName v ∧ c.columns = db.columnsOf v := by
  obtain ⟨all, hall⟩ := hs.collections_succeed
  obtain ⟨c, -, hc⟩ := Result.exists_of_forall₂ (Result.mapM_eq_ok.1 hall) hrow
  obtain ⟨w, hw, hname, hcolumns⟩ := collection_of_row hc
  cases hv.symm.trans hw
  obtain ⟨w, hw, hc⟩ := Result.bind_eq_ok.1 hc
  cases hv.symm.trans hw
  obtain ⟨points, hpoints, hc⟩ := Result.bind_eq_ok.1 hc
  exact ⟨points, c, hpoints, hc, hname, hcolumns⟩

theorem followsViews_ofChanges (hread : ∀ c ∈ cs, c.AsRead) (hproper : ∀ c ∈ cs, c.DrawsProper)
    (hnone : ¬ DigestsCollide cs) : FollowsViews (ofChanges cs) := by
  have hs := sound_ofChanges hread
  have hmade := madeViews_ofChanges hread
  have hlinks := linksColumns_ofChanges hread
  have hsql := soundSqlViews_ofChanges hread
  have haliases := soundAliases_ofChanges hread
  have htables := tabled_ofChanges hread hproper hnone
  have hcolumns := soundColumns_ofChanges hread
  generalize ofChanges cs = db at *
  have hviews := hsql.eq hs
  refine ⟨fun row hrow => ?_, hsql.uuids, fun e he => ?_, ?_, haliases.made, haliases.names⟩
  · obtain ⟨v, hv⟩ := hs.views.each row hrow
    obtain ⟨points, c, hpoints, hc, hname, hcols⟩ := hs.collection_of_view hrow hv.reads
    refine ⟨v, hv.reads, (hmade row hrow).validate hv.reads, fun k hk => (hv.linked k hk).1,
      hlinks.filter_eq hsql.uuids hrow hv.reads, ⟨points, c, hpoints, hc, ?_, ?_⟩, fun a ha => ?_⟩
    · rw [hname, hcols]
      exact @Lookup.filter_key _ _ _ _ Prod.fst _ (row.tableName v, db.columnsOf v) htables.names
        (htables.made row hrow v hv.reads)
    · rw [← mem_sqlViewsOf, ← sqlViews, hviews, hcols, ← sqlViewOf_eq hv.reads]
      exact List.mem_map_of_mem hrow
    · rw [← mem_aliasViewsOf, haliases.made, mem_aliases]
      exact ⟨row, hrow, rfl, by rw [ViewRow.alias?_eq hv.reads, ha]⟩
  · obtain ⟨row, hrow, hu, -⟩ := hcolumns e he
    exact ⟨row, hrow, hu⟩
  · rw [← sqlViews, hviews, List.map_map]
    rfl

/-! ## Removal -/

/-- What serves a stored view by its alias and its identifier is what shows it. -/
theorem filter_servesView (ha : SoundAliases db) (huuids : (db.views.map (·.uuid)).Nodup) {row : ViewRow}
    {v : View} (hrow : row ∈ db.views) (hv : row.view = .ok v) :
    db.objects.filter (!servesView row.uuid (v.aliasName.filter View.isIdentifier) ·) =
      db.objects.filter (!·.shows row.uuid) := by
  refine List.filter_congr fun o ho => ?_
  cases o with
  | table | view => rfl
  | aliasView name w =>
    have he : (name, w) ∈ db.aliases := ha.made ▸ mem_aliasViewsOf.2 ho
    have hsame := ha.alias_eq_iff huuids hrow hv he
    rw [servesView, SchemaObject.shows, Bool.not_inj_iff, Bool.eq_iff_iff, beq_iff_eq, beq_iff_eq]
    exact hsame

/-- The database without a resource and its view: the rows of the two, the links of the view and the
SQL views that show it are gone, and all else is as it was. -/
def withoutView (db : Database) (row : ResourceRow) (u : Uuid) : Database :=
  { db with
    resources := db.resources.filter (· ≠ row)
    views := db.views.filter (·.uuid ≠ u)
    viewPipes := db.viewPipes.filter (·.1 ≠ u)
    objects := db.objects.filter (!·.shows u) }

theorem deleteResource_of_view {r : Resource} {viewRow : ViewRow} {v : View}
    (hsql : SoundSqlViews db) (ha : SoundAliases db) (hrow : db.resourceRow k = .ok row)
    (hsubject : row.subject = .view viewRow.uuid) (hloads : row.resource = .ok r)
    (hview : viewRow ∈ db.views) (hv : viewRow.view = .ok v) :
    db.deleteResource k = .ok (db.withoutView row viewRow.uuid) := by
  have hstored : ({ db with resources := db.resources.filter (· ≠ row) } : Database).storedView
      viewRow.uuid = .ok ⟨viewRow.uuid, viewRow.digest, v⟩ := by
    have hfound : ({ db with resources := db.resources.filter (· ≠ row) } : Database).viewRow?
        viewRow.uuid = some viewRow := Lookup.find?_key hsql.uuids hview
    simp only [storedView, hfound, ViewRow.stored, hv, Result.ok_bind]
    rfl
  simp only [deleteResource, hrow, hloads, hsubject, deleteSubject, deleteView, hstored, Result.ok_bind,
    reduceCtorEq, ↓reduceIte, filter_servesView ha hsql.uuids hview hv]
  rfl

/-- The alias of a removed view is no name in use. -/
theorem alias_free (ha : SoundAliases db) (hnext : SoundAliases next) {row : ViewRow} {v : View} {a : String}
    (hrow : row ∈ db.views) (hv : row.view = .ok v) (halias : v.aliasName = some a)
    (hviews : next.views = db.views.filter (·.uuid ≠ row.uuid)) : next.hasObject a = false := by
  have hmem : ∀ r ∈ db.views, ∀ w, r.view = .ok w → w.aliasName = some a → (a, r.uuid) ∈ db.aliases :=
    fun r hr w hw hwa => mem_aliases.2 ⟨r, hr, rfl, by rw [ViewRow.alias?_eq hw, hwa]⟩
  have hstarts := View.not_reserved_of_validateAlias (ha.valid _ (hmem row hrow v hv halias))
  rw [← Bool.not_eq_true, hnext.hasObject_iff ⟨hstarts _ (by decide), hstarts _ (by decide)⟩]
  rintro ⟨other, hother, w, hw, hwa⟩
  rw [hviews] at hother
  obtain ⟨hother, hne⟩ := List.mem_filter.1 hother
  have hsame := List.inj_on_of_nodup_map ha.names (hmem other hother w hw hwa) (hmem row hrow v hv halias) rfl
  exact of_decide_eq_true hne (congrArg Prod.snd hsame)

/-- After any changes the schema follows the stored views, unless two texts that were stored have one
digest. So a resource of a view can be removed: what goes with it is its view, with its links and the
SQL views that show it, and the alias of the view is free then. -/
theorem schema_follows_views (cs : List Change) (hread : ∀ c ∈ cs, c.AsRead)
    (hproper : ∀ c ∈ cs, c.DrawsProper) (hnone : ¬ DigestsCollide cs) :
    FollowsViews (ofChanges cs) ∧
    ∀ k row u, (ofChanges cs).resourceRow k = .ok row → row.subject = .view u →
      ∃ viewRow v, viewRow ∈ (ofChanges cs).views ∧ viewRow.uuid = u ∧ viewRow.view = .ok v ∧
        (ofChanges cs).deleteResource k = .ok ((ofChanges cs).withoutView row u) ∧
        ∀ a, v.aliasName = some a → ((ofChanges cs).withoutView row u).hasObject a = false := by
  refine ⟨followsViews_ofChanges hread hproper hnone, fun k row u hrow hsubject => ?_⟩
  have hs := sound_ofChanges hread
  have hsql := soundSqlViews_ofChanges hread
  have haliases := soundAliases_ofChanges hread
  have hresources := soundViewResources_ofChanges hread
  generalize ofChanges cs = db at *
  obtain ⟨⟨r, hloads⟩, viewRow, hview, rfl, -⟩ := hresources.stands row (mem_of_resourceRow hrow) u hsubject
  obtain ⟨v, hv⟩ := hs.views.each viewRow hview
  have hdeleted := deleteResource_of_view hsql haliases hrow hsubject hloads hview hv.reads
  have hnext := haliases.step hsql (.deleteResource hdeleted)
  exact ⟨viewRow, v, hview, rfl, hv.reads, hdeleted,
    fun a ha => alias_free haliases hnext hview hv.reads ha rfl⟩

/-- A view of the title is stored, removed and stored again, and fills the table that was left. -/
def titlesAgain : List Change :=
  [.createResource ⟨1⟩ (.ofSpec "title" (.pipe ⟨[.ofKind .document], {}⟩)),
    .createResource ⟨2⟩ (.ofSpec "titles" (.view ⟨some "titles", [{ pipe := .bare "title" }]⟩)),
    .deleteResource (.bare "titles"),
    .createResource ⟨3⟩ (.ofSpec "titles" (.view ⟨some "titles", [{ pipe := .bare "title" }]⟩))]

theorem titles_again_follow : (∀ c ∈ titlesAgain, c.AsRead ∧ c.DrawsProper) ∧ ¬ DigestsCollide titlesAgain ∧
    FollowsViews (ofChanges titlesAgain) ∧ (tablesOf (ofChanges titlesAgain).objects).length = 1 ∧
    ∃ row, (ofChanges titlesAgain).deleteResource (.bare "titles") =
        .ok ((ofChanges titlesAgain).withoutView row ⟨3⟩) ∧
      ((ofChanges titlesAgain).withoutView row ⟨3⟩).hasObject "titles" = false := by
  have hboth : ∀ c ∈ titlesAgain, c.AsRead ∧ c.DrawsProper := by
    simp only [titlesAgain, List.mem_cons, List.not_mem_nil, or_false]
    rintro c (rfl | rfl | rfl | rfl)
    · exact ⟨List.forall_mem_singleton.2 (Action.readable_ofKind _), (by decide : Uuid.Proper ⟨1⟩)⟩
    · exact ⟨trivial, (by decide : Uuid.Proper ⟨2⟩)⟩
    · exact ⟨trivial, trivial⟩
    · exact ⟨trivial, (by decide : Uuid.Proper ⟨3⟩)⟩
  have hrun : (∀ before ∈ titlesAgain.inits, ∀ s ∈ (ofChanges before).specs,
        s ∈ (ofChanges titlesAgain).specs) ∧
      ((ofChanges titlesAgain).specs.map Checksum.Sha1.digestText).Nodup ∧
      (tablesOf (ofChanges titlesAgain).objects).length = 1 ∧
      ((ofChanges titlesAgain).resourceRow (.bare "titles")).toOption.any (fun row =>
        decide (row.subject = .view ⟨3⟩)) = true ∧
      ∀ row ∈ (ofChanges titlesAgain).views, ∀ v ∈ row.view.toOption, v.aliasName = some "titles" := by
    decide +kernel
  obtain ⟨hheld, hdigests, htable, hrow, halias⟩ := hrun
  obtain ⟨row, hrow, hsubject⟩ := Result.exists_ok_of_any hrow
  have hnone : ¬ DigestsCollide titlesAgain := not_digestsCollide
    (fun before hbefore => hheld before ((List.mem_inits _ _).2 hbefore)) hdigests
  obtain ⟨hfollows, hremoved⟩ := schema_follows_views titlesAgain (fun c hc => (hboth c hc).1)
    (fun c hc => (hboth c hc).2) hnone
  obtain ⟨viewRow, v, hview, -, hv, hdeleted, hfree⟩ := hremoved _ row _ hrow (of_decide_eq_true hsubject)
  exact ⟨hboth, hnone, hfollows, htable, row, hdeleted,
    hfree _ (halias viewRow hview v (Result.toOption_eq_some.2 hv))⟩

end Database
end PagePipes
