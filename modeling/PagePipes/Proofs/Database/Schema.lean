import PagePipes.Proofs.Database.Records

set_option autoImplicit false

/-!
# Stored views along steps

A step leaves the stored views, their links and what was made for them in the schema alone, but for
rows that a report adds to tables; or it stores one view, or removes one. What is stored is a view as
it was repointed: it has the aliases of a valid view, and its pipes are stored.
-/
namespace PagePipes

theorem View.alias_of_validate {v : View} {a : String} (h : v.validate = .ok ())
    (ha : v.aliasName = some a) : validateAlias a = .ok () :=
  (validate_eq_ok.1 h).2.1 a ha

namespace Database

variable {db next : Database} {u : Uuid}

/-- A view may be stored: its aliases are valid and its pipes are stored. -/
structure Storable (db : Database) (v : View) : Prop where
  aliasName : ∀ a, v.aliasName = some a → View.validateAlias a = .ok ()
  columns : ∀ c ∈ v.columns, ∀ a, c.aliasName = some a → View.isIdentifier a = true
  pipes : ∀ k ∈ v.references, db.Stores k ∧ k.isQualified = true ∧ k.Valid

theorem Storable.reads {v : View} (h : db.Storable v) :
    ViewRow.view ⟨u, v.digest, v.toJson.compact⟩ = .ok v :=
  View.ofText_compact fun k hk => (h.pipes k hk).2.2

theorem pointOf_congr (h : next.pipes = db.pipes) : next.pointOf = db.pointOf := by
  funext k
  simp only [pointOf, pipe, pipeRow?, h]

/-- What is read off a table without its rows stays when the table gets more rows. -/
theorem filterMap_filled {β : Type} {P : String → List Sql.CollectionColumn → List Sql.Value → Prop}
    {f : SchemaObject → Option β} {objects others : List SchemaObject}
    (hf : ∀ name columns rows rows', f (.table name columns rows) = f (.table name columns rows'))
    (h : List.Forall₂ (Filled P) objects others) : others.filterMap f = objects.filterMap f := by
  induction h with
  | nil => rfl
  | cons ho _ ih =>
    cases ho with
    | same o => rw [List.filterMap_cons, List.filterMap_cons, ih]
    | grown name columns rows added =>
      rw [List.filterMap_cons, List.filterMap_cons, ih, hf name columns (rows ++ added) rows]

/-- What a step makes of the stored views, their links and the schema. -/
inductive SchemaStep (db next : Database) : Prop
  | same (hviews : next.views = db.views) (hlinked : next.viewPipes = db.viewPipes)
      (hobjects : List.Forall₂ (Filled fun _ _ _ => True) db.objects next.objects)
  | stored {u : Uuid} {v : View} {made : Database} {stored : StoredView} (hv : db.Storable v)
      (h : db.insertView u v = .ok (made, stored)) (hpipes : next.pipes = db.pipes)
      (hviews : next.views = made.views) (hlinked : next.viewPipes = made.viewPipes)
      (hobjects : next.objects = made.objects)
  | removed {u : Uuid} {row : ViewRow} {v : View} (hrow : db.viewRow? u = some row)
      (hv : row.view = .ok v) (hviews : next.views = db.views.filter (·.uuid ≠ u))
      (hlinked : next.viewPipes = db.viewPipes.filter (·.1 ≠ u))
      (hobjects : next.objects =
        db.objects.filter (!servesView u (v.aliasName.filter View.isIdentifier) ·))

/-- A view as it was repointed has the aliases of the view, and refers to stored pipes. -/
theorem storable_of_repointed {v w : View} (hvalid : v.validate = .ok ())
    (haliasName : w.aliasName = v.aliasName)
    (hcolumns : List.Forall₂ (Column.Repointed db.Resolves) v.columns w.columns) : db.Storable w where
  aliasName a ha := View.alias_of_validate hvalid (haliasName ▸ ha)
  columns d hd a ha := by
    obtain ⟨c, hc, hcalias, -⟩ := Result.exists_of_forall₂ hcolumns.flip hd
    exact View.aliases_of_validate hvalid c hc a (hcalias ▸ ha)
  pipes k hk := by
    obtain ⟨d, hd, rfl⟩ := List.mem_map.1 hk
    obtain ⟨c, -, -, hcd⟩ := Result.exists_of_forall₂ hcolumns.flip hd
    exact ⟨hcd.stores, hcd.qualified, hcd.valid⟩

/-- No table got a row: each was there with its rows, or is new and empty. -/
def Unfilled (db next : Database) : Prop :=
  ∀ name columns rows, .table name columns rows ∈ next.objects →
    .table name columns rows ∈ db.objects ∨ rows = []

theorem unfilled_of_insertView {v : View} {stored : StoredView}
    (h : db.insertView u v = .ok (next, stored)) : Unfilled db next := by
  obtain ⟨-, -, -, -, points, c, tables, -, -, htables, rfl⟩ := insertView_eq_ok h
  intro name columns rows hmem
  obtain hold | hviews := List.mem_append.1 hmem
  · refine (List.mem_append.1 hold).imp_right fun hnew => ?_
    rw [htables] at hnew
    split at hnew
    · cases hnew
    · cases List.mem_singleton.1 hnew
      rfl
  · simp at hviews

theorem schema_of_same (hviews : next.views = db.views) (hlinked : next.viewPipes = db.viewPipes)
    (hobjects : next.objects = db.objects) : SchemaStep db next ∧ Unfilled db next :=
  ⟨.same hviews hlinked (hobjects ▸ filled_refl _), fun _ _ _ hmem => .inl (hobjects ▸ hmem)⟩

/-- Beside the view that a step stores it may put a resource for it. -/
theorem schema_of_insertView {v w : View} {made : Database} {stored : StoredView}
    (hvalid : v.validate = .ok ()) (haliasName : w.aliasName = v.aliasName)
    (hcolumns : List.Forall₂ (Column.Repointed db.Resolves) v.columns w.columns)
    (h : db.insertView u w = .ok (made, stored)) (resources : List ResourceRow) :
    SchemaStep db { made with resources } ∧ Unfilled db { made with resources } := by
  obtain ⟨views, viewPipes, objects, hframe⟩ := insertView_frame h
  have hpipes := congrArg Database.pipes hframe
  exact ⟨.stored (storable_of_repointed hvalid haliasName hcolumns) h hpipes rfl rfl rfl,
    fun _ _ _ => unfilled_of_insertView h _ _ _⟩

theorem Created.schema {r q : Resource} (hvalid : r.validate = .ok ())
    (hrq : Resource.Repointed db.Resolves r q) (h : Created db u q next) :
    SchemaStep db next ∧ Unfilled db next := by
  cases h with
  | @pipe p hq =>
    obtain ⟨pipes, h⟩ := insertPipe_frame db q.key p
    rw [h]
    exact schema_of_same rfl rfl rfl
  | @view w viewed stored hq hv =>
    obtain ⟨v, hr, haliasName, hcolumns⟩ := hrq.of_view hq
    have hrvalid := (Resource.validate_eq_ok.1 hvalid).2.2
    rw [hr] at hrvalid
    exact schema_of_insertView hrvalid haliasName hcolumns hv _
  | rule => exact schema_of_same rfl rfl rfl

theorem Deleted.schema {row : ResourceRow} (h : Deleted db row next) :
    SchemaStep db next ∧ Unfilled db next := by
  cases h with
  | pipe | rule => exact schema_of_same rfl rfl rfl
  | view hsubject hrow hv =>
    exact ⟨.removed hrow hv rfl rfl rfl, fun _ _ _ hmem => .inl (List.mem_filter.1 hmem).1⟩

/-- A step is a report, or no table gets a row by it. -/
theorem Step.schema_or_exchange (h : Step db next) : (SchemaStep db next ∧ Unfilled db next) ∨
    ∃ time report receipt, db.exchange time report = .ok (next, receipt) := by
  cases h with
  | createResource _ h =>
    obtain ⟨hvalid, q, hq, -, ⟨rfl, -⟩ | ⟨-, hcreated⟩⟩ := createResource_eq_ok h
    · exact .inl (schema_of_same rfl rfl rfl)
    · exact .inl (hcreated.schema hvalid (qualifyResource_eq_ok hq))
  | deleteResource h =>
    obtain ⟨row, -, hdeleted⟩ := deleteResource_eq_ok h
    exact .inl hdeleted.schema
  | setDisabled h =>
    obtain ⟨-, rfl⟩ := setDisabled_eq_ok.1 h
    exact .inl (schema_of_same rfl rfl rfl)
  | createRule h =>
    obtain ⟨conditions, links, rfl⟩ := createRule_frame h
    exact .inl (schema_of_same rfl rfl rfl)
  | deleteRule h =>
    obtain ⟨conditions, links, rfl⟩ := deleteRule_frame h
    exact .inl (schema_of_same rfl rfl rfl)
  | createView h =>
    obtain ⟨hvalid, w, haliasName, hcolumns, h⟩ := createView_eq_ok h
    exact .inl (schema_of_insertView hvalid haliasName hcolumns h next.resources)
  | trigger h =>
    obtain ⟨plans, rfl⟩ := trigger_frame h
    exact .inl (schema_of_same rfl rfl rfl)
  | exchange h => exact .inr ⟨_, _, _, h⟩

theorem Step.schema (h : Step db next) : SchemaStep db next := by
  obtain ⟨hschema, -⟩ | ⟨time, report, receipt, h⟩ := h.schema_or_exchange
  · exact hschema
  · obtain ⟨plan, targets, recorded, all, objects, n, -, -, -, -, hfill, -, rfl⟩ := exchange_eq_ok h
    exact .same rfl rfl (filled_fill (fun _ _ _ _ _ => trivial) hfill)

end Database
end PagePipes
