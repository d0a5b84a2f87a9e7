import PagePipes.Proofs.Database.CollectionTables

set_option autoImplicit false

/-!
# Stored views are valid

A view is checked before its references are qualified, so two of its columns may come to name one
pipe afterwards. But each column is linked to its pipe once, and so a view that has two columns of one
pipe is never stored. Every stored view passes the checks as it is stored, and the links and the SQL
views can be computed from the stored views.
-/
namespace PagePipes

namespace View

variable {v w : View}

/-- A valid view stays valid when its columns are pointed at stored pipes, unless two of them come to
name one pipe. -/
theorem validate_of_repointed {db : Database} (hvalid : v.validate = .ok ())
    (haliasName : w.aliasName = v.aliasName)
    (hcolumns : List.Forall₂ (Column.Repointed db.Resolves) v.columns w.columns)
    (hnodup : w.references.Nodup) : w.validate = .ok () := by
  obtain ⟨hsome, halias, hidentifiers, -, hnames⟩ := validate_eq_ok.1 hvalid
  refine validate_eq_ok.2 ⟨?_, haliasName ▸ halias, fun d hd a ha => ?_, hnodup,
    names_of_repointed hcolumns ▸ hnames⟩
  · rintro hnone
    rw [hnone] at hcolumns
    exact hsome (List.forall₂_nil_right_iff.1 hcolumns)
  · obtain ⟨c, hc, hcalias, -⟩ := Result.exists_of_forall₂ hcolumns.flip hd
    exact hidentifiers c hc a (hcalias ▸ ha)

end View

namespace Database

variable {db next : Database} {u : Uuid} {k : Key} {cs : List Change}

/-! ## Rows of valid views -/

/-- A row as it is made for a valid view whose references are valid keys. -/
inductive ViewRow.Made : ViewRow → Prop
  | of {u : Uuid} {v : View} (hvalid : v.validate = .ok ()) (hkeys : ∀ k ∈ v.references, k.Valid) :
      Made ⟨u, v.digest, v.toJson.compact⟩

theorem made_of_insertView {v w : View} {stored : StoredView} (hvalid : v.validate = .ok ())
    (haliasName : w.aliasName = v.aliasName)
    (hcolumns : List.Forall₂ (Column.Repointed db.Resolves) v.columns w.columns)
    (h : db.insertView u w = .ok (next, stored)) :
    ∀ row ∈ next.views, row ∈ db.views ∨ ViewRow.Made row := by
  have hstorable := storable_of_repointed hvalid haliasName hcolumns
  obtain ⟨-, -, hnodup, -, points, c, tables, -, -, -, rfl⟩ := insertView_eq_ok h
  intro row hrow
  obtain hrow | hrow := List.mem_append.1 hrow
  · exact .inl hrow
  · rw [List.mem_singleton.1 hrow]
    exact .inr (.of (View.validate_of_repointed hvalid haliasName hcolumns hnodup)
      fun k hk => (hstorable.pipes k hk).2.2)

theorem Step.madeViews (h : Step db next) : ∀ row ∈ next.views, row ∈ db.views ∨ ViewRow.Made row := by
  have hsame : ∀ row ∈ db.views, row ∈ db.views ∨ ViewRow.Made row := fun _ => .inl
  cases h with
  | @createResource u r next k hread h =>
    obtain ⟨hvalid, q, hq, -, ⟨rfl, -⟩ | ⟨-, hcreated⟩⟩ := createResource_eq_ok h
    · exact hsame
    · cases hcreated with
      | @pipe p hspec =>
        obtain ⟨pipes, h⟩ := insertPipe_frame db q.key p
        rw [h]
        exact hsame
      | @view w viewed stored hspec hv =>
        have hrvalid := (Resource.validate_eq_ok.1 hvalid).2.2
        obtain ⟨v, hr, haliasName, hcolumns⟩ := (qualifyResource_eq_ok hq).of_view hspec
        rw [hr] at hrvalid
        have hmade := made_of_insertView hrvalid haliasName hcolumns hv
        exact hmade
      | rule hspec hstored hlinks => exact hsame
  | deleteResource h =>
    obtain ⟨row, -, hdeleted⟩ := deleteResource_eq_ok h
    cases hdeleted with
    | pipe | rule => exact hsame
    | view => exact fun row hrow => .inl (List.mem_filter.1 hrow).1
  | setDisabled h =>
    obtain ⟨-, rfl⟩ := setDisabled_eq_ok.1 h
    exact hsame
  | createRule h =>
    obtain ⟨conditions, links, rfl⟩ := createRule_frame h
    exact hsame
  | deleteRule h =>
    obtain ⟨conditions, links, rfl⟩ := deleteRule_frame h
    exact hsame
  | createView h =>
    obtain ⟨hvalid, w, haliasName, hcolumns, h⟩ := createView_eq_ok h
    exact made_of_insertView hvalid haliasName hcolumns h
  | trigger h =>
    obtain ⟨plans, rfl⟩ := trigger_frame h
    exact hsame
  | exchange h =>
    obtain ⟨events, objects, plans, rfl⟩ := exchange_frame h
    exact hsame

/-- Every stored view was valid when its row was made. -/
theorem madeViews_ofChanges (h : ∀ c ∈ cs, c.AsRead) :
    ∀ row ∈ (ofChanges cs).views, ViewRow.Made row :=
  ofChanges_keeps h (P := fun db => ∀ row ∈ db.views, ViewRow.Made row) (by simp [empty])
    fun _ hdb hstep row hrow => (hstep.madeViews row hrow).elim (hdb row) id

theorem ViewRow.Made.validate {row : ViewRow} (h : ViewRow.Made row) {v : View} (hv : row.view = .ok v) :
    v.validate = .ok () := by
  cases h with
  | of hvalid hkeys =>
    cases (View.ofText_compact hkeys).symm.trans hv
    exact hvalid

/-! ## Links to columns -/

/-- A link from a stored view to each of its pipes. -/
def columnLinks (row : ViewRow) : List (Uuid × Key) :=
  ((row.view.toOption.map (·.references)).getD []).map (row.uuid, ·)

theorem columnLinks_eq {row : ViewRow} {v : View} (h : row.view = .ok v) :
    columnLinks row = v.references.map (row.uuid, ·) := by
  rw [columnLinks, h]
  rfl

theorem filter_columnLinks (rows : List ViewRow) (p : Uuid → Bool) :
    (rows.flatMap columnLinks).filter (p ·.1) = (rows.filter (p ·.uuid)).flatMap columnLinks := by
  induction rows with
  | nil => rfl
  | cons row rows ih =>
    have hown : (columnLinks row).filter (p ·.1) = if p row.uuid then columnLinks row else [] := by
      by_cases hp : p row.uuid = true <;> simp [columnLinks, List.filter_map, Function.comp_def, hp]
    rw [List.flatMap_cons, List.filter_append, ih, hown, List.filter_cons]
    split <;> simp

/-- The links of the stored views are those to their columns, in order. -/
def LinksColumns (db : Database) : Prop := db.viewPipes = db.views.flatMap columnLinks

theorem LinksColumns.step (hq : LinksColumns db) (h : Step db next) : LinksColumns next := by
  cases h.schema with
  | same hviews hlinked _ => rwa [LinksColumns, hviews, hlinked]
  | stored hv h _ hviews hlinked _ =>
    obtain ⟨-, -, -, -, points, c, tables, -, -, -, rfl⟩ := insertView_eq_ok h
    rw [LinksColumns, hviews, hlinked, List.flatMap_append, List.flatMap_singleton,
      columnLinks_eq hv.reads, ← hq]
  | @removed u _ _ _ _ hviews hlinked _ =>
    rw [LinksColumns, hviews, hlinked, hq]
    exact filter_columnLinks db.views (· ≠ u)

theorem linksColumns_ofChanges (h : ∀ c ∈ cs, c.AsRead) : LinksColumns (ofChanges cs) :=
  ofChanges_keeps h (by simp [LinksColumns, empty]) fun _ hq hstep => hq.step hstep

theorem LinksColumns.filter_eq (hq : LinksColumns db) (huuids : (db.views.map (·.uuid)).Nodup)
    {row : ViewRow} (hrow : row ∈ db.views) {v : View} (hv : row.view = .ok v) :
    db.viewPipes.filter (·.1 == row.uuid) = v.references.map (row.uuid, ·) := by
  have honly := @Lookup.filter_key _ _ _ _ ViewRow.uuid _ _ huuids hrow
  rw [hq, filter_columnLinks db.views (· == row.uuid), honly, List.flatMap_singleton, columnLinks_eq hv]

/-! ## SQL views -/

theorem MadeFor.eq {c : Column} {col : Sql.CollectionColumn} (h : db.MadeFor c col) :
    col = ⟨c.name, c.pipe, db.pointOf c.pipe⟩ := by
  obtain ⟨name, pipe, point⟩ := col
  obtain ⟨rfl, -, rfl, rfl⟩ := h
  rfl

/-- The columns of a stored view as its SQL view and its table have them. -/
def sqlViewOf (db : Database) (row : ViewRow) : Uuid × List Sql.CollectionColumn :=
  (row.uuid, (row.view.toOption.map db.columnsOf).getD [])

theorem sqlViewOf_eq {row : ViewRow} {v : View} (h : row.view = .ok v) :
    db.sqlViewOf row = (row.uuid, db.columnsOf v) := by
  rw [sqlViewOf, h]
  rfl

/-- The SQL views that have identifiers are those of the stored views, in order. -/
theorem SoundSqlViews.eq (hq : SoundSqlViews db) (hs : db.Sound) :
    db.sqlViews = db.views.map db.sqlViewOf := by
  rw [← List.forall₂_eq_eq_eq, List.forall₂_map_right_iff]
  refine ((List.forall₂_and_left db.views db.sqlViews).2 ⟨fun row hrow => hrow, hq.made⟩).flip.imp ?_
  rintro ⟨made, columns⟩ row ⟨hrow, rfl, hmade⟩
  obtain ⟨v, hv⟩ := hs.views.each row hrow
  rw [sqlViewOf_eq hv.reads, Prod.mk.injEq, columnsOf, ← List.forall₂_eq_eq_eq,
    List.forall₂_map_right_iff]
  exact ⟨rfl, (hmade v hv.reads).flip.imp fun _ _ => MadeFor.eq⟩

theorem mem_sqlViewsOf {objects : List SchemaObject} {columns : List Sql.CollectionColumn} :
    (u, columns) ∈ sqlViewsOf objects ↔ .view u columns ∈ objects := by
  rw [sqlViewsOf, List.mem_filterMap]
  constructor
  · rintro ⟨_ | _ | _, ho, h⟩ <;> cases h
    exact ho
  · exact fun h => ⟨_, h, rfl⟩

end Database
end PagePipes
