import PagePipes.Proofs.Database.Joins
import PagePipes.Proofs.Database.Schema
import PagePipes.Proofs.Sql.Names
import PagePipes.Proofs.Sql.Shown

set_option autoImplicit false

/-!
# Rows of stored views

Each stored view has one SQL view, with the columns of the view and the points of their pipes. The
pipes cannot be removed, so this stays so. As recorded values are of the points of their pipes, the
rows of the view show every event once, as long as the query can join enough tables.
-/
namespace PagePipes

/-! ## Names of columns -/

/-- The names of columns have no capital letters. -/
theorem Column.lower_name {c : Column} (hpipe : Key.validateName c.pipe.name = .ok ())
    (halias : ∀ a, c.aliasName = some a → View.isIdentifier a = true) : Key.lower c.name = c.name := by
  unfold name
  split
  · next a ha => exact View.lower_of_isIdentifier (halias a ha)
  · refine Key.lower_eq_of_chars fun c hc => ?_
    rw [String.toList_ofList] at hc
    obtain ⟨d, hd, rfl⟩ := List.mem_map.1 hc
    split
    · exact .inl (by decide)
    · exact Key.chars_of_validName hpipe d hd

namespace Database

variable {db next : Database} {u : Uuid} {k : Key}

/-! ## SQL views -/

def sqlViewsOf (objects : List SchemaObject) : List (Uuid × List Sql.CollectionColumn) :=
  objects.filterMap fun
    | .view u columns => some (u, columns)
    | _ => none

def sqlViews (db : Database) : List (Uuid × List Sql.CollectionColumn) := sqlViewsOf db.objects

/-- A column of an SQL view is made for a column of a stored view. -/
structure MadeFor (db : Database) (c : Column) (col : Sql.CollectionColumn) : Prop where
  name : col.name = c.name
  lower : Key.lower c.name = c.name
  pipe : col.pipe = c.pipe
  point : col.point = db.pointOf c.pipe

structure SoundSqlViews (db : Database) : Prop where
  uuids : (db.views.map (·.uuid)).Nodup
  made : List.Forall₂ (fun row made => made.1 = row.uuid ∧ ∀ v, row.view = .ok v →
    List.Forall₂ db.MadeFor v.columns made.2) db.views db.sqlViews

theorem SoundSqlViews.empty : SoundSqlViews .empty := ⟨List.nodup_nil, .nil⟩

/-- What a step makes of the stored views and their SQL views. -/
inductive ViewsStep (db next : Database) : Prop
  | same (hviews : next.views = db.views) (hsql : next.sqlViews = db.sqlViews)
  | added {row : ViewRow} {columns : List Sql.CollectionColumn} (hfresh : ∀ r ∈ db.views, r.uuid ≠ row.uuid)
      (hmade : ∀ v, row.view = .ok v → List.Forall₂ next.MadeFor v.columns columns)
      (hviews : next.views = db.views ++ [row]) (hsql : next.sqlViews = db.sqlViews ++ [(row.uuid, columns)])
  | removed (u : Uuid) (hviews : next.views = db.views.filter (·.uuid ≠ u))
      (hsql : next.sqlViews = db.sqlViews.filter (·.1 ≠ u))

theorem sqlViewsOf_filter (objects : List SchemaObject) (u : Uuid) (aliasName : Option String) :
    sqlViewsOf (objects.filter (!servesView u aliasName ·)) =
      (sqlViewsOf objects).filter (·.1 ≠ u) := by
  induction objects with
  | nil => rfl
  | cons o objects ih =>
    cases o with
    | table name columns rows => exact ih
    | aliasView name v =>
      rw [List.filter_cons]
      split <;> exact ih
    | view v columns =>
      by_cases hv : v = u
      · simp_all [sqlViewsOf, servesView]
      · simp_all [sqlViewsOf, servesView]

theorem sqlViewsOf_filled {P : String → List Sql.CollectionColumn → List Sql.Value → Prop}
    {objects others : List SchemaObject} (h : List.Forall₂ (Filled P) objects others) :
    sqlViewsOf others = sqlViewsOf objects :=
  filterMap_filled (fun _ _ _ _ => rfl) h

theorem sqlViewsOf_append (objects others : List SchemaObject) :
    sqlViewsOf (objects ++ others) = sqlViewsOf objects ++ sqlViewsOf others :=
  List.filterMap_append

theorem Step.views (h : Step db next) : ViewsStep db next := by
  cases h.schema with
  | same hviews _ hobjects => exact .same hviews (sqlViewsOf_filled hobjects)
  | @stored u v made stored hv h hpipes hviews _ hobjects =>
    obtain ⟨-, hfresh, -, -, points, c, tables, hpoints, hc, htables, rfl⟩ := insertView_eq_ok h
    refine @ViewsStep.added _ _ _ c.columns hfresh (fun w hw => ?_) hviews ?_
    · cases hv.reads.symm.trans hw
      have hcolumns := (List.forall₂_and_left v.columns c.columns).2
        ⟨fun d hd => hd, columns_of_ofView hpoints hc⟩
      refine hcolumns.imp fun d col => ?_
      rintro ⟨hd, hname, hpipe, hpoint⟩
      have hkey := (hv.pipes d.pipe (List.mem_map_of_mem hd)).2.2
      refine ⟨hname, Column.lower_name hkey.name (hv.columns d hd), hpipe, ?_⟩
      rw [hpoint, pointOf_congr hpipes]
    · have hrest : sqlViewsOf (tables ++ .view u c.columns :: v.aliasName.toList.map fun a =>
          .aliasView a u) = [(u, c.columns)] := by
        rw [htables]
        split <;> cases v.aliasName <;> rfl
      rw [sqlViews, hobjects, List.append_assoc, sqlViewsOf_append, hrest, sqlViews]
  | removed _ _ hviews _ hobjects =>
    exact .removed _ hviews (by rw [sqlViews, hobjects, sqlViewsOf_filter, sqlViews])

theorem Sound.linked_of_column (hs : db.Sound) {row : ViewRow} {v : View} {c : Column}
    (hrow : row ∈ db.views) (hv : row.view = .ok v) (hc : c ∈ v.columns) :
    (row.uuid, c.pipe) ∈ db.viewPipes ∧ db.Stores c.pipe := by
  obtain ⟨w, hw⟩ := hs.views.each row hrow
  cases hv.symm.trans hw.reads
  obtain ⟨-, hlinked⟩ := hw.linked c.pipe (List.mem_map_of_mem hc)
  exact ⟨hlinked, hs.views.stored _ hlinked⟩

/-- The pipes of a stored view are needed, so its columns stay as they were made. -/
theorem MadeFor.step {row : ViewRow} {v : View} {c : Column} {col : Sql.CollectionColumn}
    (hmade : db.MadeFor c col) (hs : db.Sound) (h : Step db next) (hrow : row ∈ db.views)
    (hv : row.view = .ok v) (hc : c ∈ v.columns) : next.MadeFor c col := by
  obtain ⟨hlinked, hstored⟩ := hs.linked_of_column hrow hv hc
  have hpoint := h.pointOf_eq hs (needed_of_linked hlinked) hstored
  exact ⟨hmade.name, hmade.lower, hmade.pipe, hmade.point.trans hpoint.symm⟩

theorem SoundSqlViews.step (hq : SoundSqlViews db) (hs : db.Sound) (h : Step db next) :
    SoundSqlViews next := by
  have hkept : List.Forall₂ (fun row made => made.1 = row.uuid ∧ ∀ v, row.view = .ok v →
      List.Forall₂ next.MadeFor v.columns made.2) db.views db.sqlViews := by
    refine ((List.forall₂_and_left db.views db.sqlViews).2 ⟨fun row hrow => hrow, hq.made⟩).imp ?_
    rintro row made ⟨hrow, huuid, hmade⟩
    refine ⟨huuid, fun v hv => ?_⟩
    refine ((List.forall₂_and_left v.columns made.2).2 ⟨fun c hc => hc, hmade v hv⟩).imp ?_
    rintro c col ⟨hc, hcol⟩
    exact hcol.step hs h hrow hv hc
  cases h.views with
  | same hviews hsql => exact ⟨hviews ▸ hq.uuids, by rwa [hviews, hsql]⟩
  | @added row columns hfresh hmade hviews hsql =>
    refine ⟨?_, ?_⟩
    · rw [hviews, List.map_append, List.map_singleton, List.nodup_append]
      refine ⟨hq.uuids, List.nodup_singleton _, fun a ha b hb => ?_⟩
      obtain ⟨r, hr, rfl⟩ := List.mem_map.1 ha
      rw [List.mem_singleton.1 hb]
      exact hfresh r hr
    · rw [hviews, hsql]
      exact List.rel_append hkept (.cons ⟨rfl, hmade⟩ .nil)
  | removed u hviews hsql =>
    refine ⟨?_, ?_⟩
    · rw [hviews]
      exact hq.uuids.sublist (List.filter_sublist.map _)
    · rw [hviews, hsql]
      refine List.rel_filter (fun row made h => ?_) hkept
      simp [h.1]

theorem soundSqlViews_ofChanges {cs : List Change} (h : ∀ c ∈ cs, c.AsRead) :
    SoundSqlViews (ofChanges cs) :=
  ofChanges_keeps h .empty fun hs hq hstep => hq.step hs hstep

/-! ## Rows -/

theorem findSome?_columnsFor (objects : List SchemaObject) (u : Uuid) :
    objects.findSome? (columnsFor u) = ((sqlViewsOf objects).find? (·.1 == u)).map (·.2) := by
  induction objects with
  | nil => rfl
  | cons o objects ih =>
    cases o with
    | table | aliasView => exact ih
    | view v columns =>
      by_cases hv : v = u
      · simp [sqlViewsOf, columnsFor, hv]
      · simp_all [sqlViewsOf, columnsFor]

theorem SoundSqlViews.exists_columns (hq : SoundSqlViews db) {row : ViewRow} (hrow : row ∈ db.views)
    {v : View} (hv : row.view = .ok v) : ∃ columns, List.Forall₂ db.MadeFor v.columns columns ∧
      db.objects.findSome? (columnsFor row.uuid) = some columns := by
  have huuids : db.sqlViews.map (·.1) = db.views.map (·.uuid) :=
    Result.map_eq_of_forall₂ hq.made.flip fun made row h => h.1
  obtain ⟨⟨u, columns⟩, hmem, hu, hmade⟩ := Result.exists_of_forall₂ hq.made hrow
  subst hu
  refine ⟨columns, hmade v hv, ?_⟩
  have hfound := @Lookup.find?_key _ _ _ _ Prod.fst db.sqlViews (row.uuid, columns)
    (huuids ▸ hq.uuids) hmem
  rw [findSome?_columnsFor, ← sqlViews, hfound]
  rfl

end Database
end PagePipes
