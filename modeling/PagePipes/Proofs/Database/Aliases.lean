import PagePipes.Proofs.Database.SqlViews

set_option autoImplicit false

/-!
# Aliases of stored views

A stored view that has an alias has one SQL view of that name, and no two stored views have one alias.
An alias begins with none of the starts that the store keeps for its own names. So just the names of
tables and SQL views that the store makes for itself and the aliases of the stored views are in use.
-/
namespace PagePipes

theorem View.not_reserved_of_validateAlias {a : String} (h : validateAlias a = .ok ()) :
    ∀ start ∈ reservedStarts, ¬ start.toList <+: a.toList := by
  intro start hstart hbegins
  unfold validateAlias at h
  cases hfind : reservedStarts.find? (·.toList.isPrefixOf a.toList) with
  | none => exact List.find?_eq_none.1 hfind start hstart (List.isPrefixOf_iff_prefix.2 hbegins)
  | some s => cases hid : validateIdentifier a <;> by_cases hmem : a ∈ storeTables <;> simp_all

theorem View.not_storeTable_of_validateAlias {a : String} (h : validateAlias a = .ok ()) :
    a ∉ storeTables := by
  obtain ⟨⟨⟩, -, h⟩ := Result.bind_eq_ok.1 h
  intro hmem
  simp [hmem] at h

theorem Column.isIdentifier_name {c : Column} (hpipe : Key.validateName c.pipe.name = .ok ())
    (halias : ∀ a, c.aliasName = some a → View.isIdentifier a = true) :
    View.isIdentifier c.name = true := by
  unfold name
  split
  · next a ha => exact halias a ha
  · obtain ⟨first, rest, hname, hfirst, hrest⟩ := Key.validateName_eq_ok.1 hpipe
    have hstart : (if first = '-' then '_' else first) = first := by
      rw [if_neg]
      rintro rfl
      exact absurd hfirst (by decide)
    simp only [View.isIdentifier, hname, String.toList_ofList, List.map_cons, hstart, hfirst,
      List.all_map, List.all_eq_true, Bool.true_and, Function.comp_apply]
    intro d hd
    have hchar := hrest d hd
    simp only [Key.isNameChar, Bool.or_eq_true, decide_eq_true_eq, beq_iff_eq] at hchar
    split
    · decide
    · next hne =>
      obtain (h | h) | h := hchar
      · simp [Key.isNameStart, h]
      · simp [h]
      · exact absurd h hne

def ViewRow.alias? (row : ViewRow) : Option String := row.view.toOption.bind (·.aliasName)

theorem ViewRow.alias?_eq {row : ViewRow} {v : View} (h : row.view = .ok v) :
    row.alias? = v.aliasName := by
  rw [alias?, h]
  rfl

namespace Database

variable {db next : Database} {u : Uuid} {name : String}

/-- The SQL views of aliases, and the stored views that they were made for. -/
def aliasViewsOf (objects : List SchemaObject) : List (String × Uuid) :=
  objects.filterMap fun
    | .aliasView name u => some (name, u)
    | _ => none

/-- The stored views by their aliases. -/
def aliases (db : Database) : List (String × Uuid) :=
  db.views.filterMap fun row => row.alias?.map (·, row.uuid)

theorem mem_aliasViewsOf {objects : List SchemaObject} :
    (name, u) ∈ aliasViewsOf objects ↔ .aliasView name u ∈ objects := by
  rw [aliasViewsOf, List.mem_filterMap]
  constructor
  · rintro ⟨_ | _ | _, ho, h⟩ <;> cases h
    exact ho
  · exact fun h => ⟨_, h, rfl⟩

theorem mem_aliases : (name, u) ∈ db.aliases ↔ ∃ row ∈ db.views, row.uuid = u ∧ row.alias? = some name := by
  rw [aliases, List.mem_filterMap]
  constructor
  · rintro ⟨row, hrow, h⟩
    obtain ⟨a, ha, heq⟩ := Option.map_eq_some_iff.1 h
    cases heq
    exact ⟨row, hrow, rfl, ha⟩
  · rintro ⟨row, hrow, rfl, ha⟩
    exact ⟨row, hrow, by rw [ha]; rfl⟩

structure SoundAliases (db : Database) : Prop where
  columns : ∀ row ∈ db.views, ∀ v, row.view = .ok v → ∀ c ∈ v.columns, ∀ a, c.aliasName = some a →
    View.isIdentifier a = true
  valid : ∀ e ∈ db.aliases, View.validateAlias e.1 = .ok ()
  made : aliasViewsOf db.objects = db.aliases
  names : (db.aliases.map (·.1)).Nodup
  tables : ∀ name columns rows, .table name columns rows ∈ db.objects →
    "collection_".toList <+: name.toList

theorem aliasViewsOf_filled {P : String → List Sql.CollectionColumn → List Sql.Value → Prop}
    {objects others : List SchemaObject} (h : List.Forall₂ (Filled P) objects others) :
    aliasViewsOf others = aliasViewsOf objects :=
  filterMap_filled (fun _ _ _ _ => rfl) h

theorem aliasViewsOf_filter (objects : List SchemaObject) (u : Uuid) (aliasName : Option String) :
    aliasViewsOf (objects.filter (!servesView u aliasName ·)) =
      (aliasViewsOf objects).filter fun e => aliasName ≠ some e.1 := by
  induction objects with
  | nil => rfl
  | cons o objects ih =>
    cases o with
    | table name columns rows => exact ih
    | view v columns =>
      rw [List.filter_cons]
      split <;> exact ih
    | aliasView name v =>
      by_cases hname : aliasName = some name
      · simp_all [aliasViewsOf, servesView]
      · simp_all [aliasViewsOf, servesView]

theorem hasObject_of_aliasView (h : .aliasView name u ∈ db.objects) : db.hasObject name = true :=
  List.any_eq_true.2 ⟨_, h, by simp [SchemaObject.name]⟩

namespace SoundAliases

theorem empty : SoundAliases .empty :=
  ⟨by simp [Database.empty], by simp [aliases, Database.empty], rfl, List.nodup_nil, by simp [Database.empty]⟩

theorem of_same (hq : SoundAliases db) (hviews : next.views = db.views)
    (hobjects : List.Forall₂ (Filled fun _ _ _ => True) db.objects next.objects) :
    SoundAliases next := by
  have haliases : next.aliases = db.aliases := by rw [aliases, hviews, aliases]
  refine ⟨hviews ▸ hq.columns, haliases ▸ hq.valid, ?_, haliases ▸ hq.names, fun name columns rows h => ?_⟩
  · rw [aliasViewsOf_filled hobjects, hq.made, haliases]
  · obtain ⟨o, ho, hfilled⟩ := Result.exists_of_forall₂ hobjects.flip h
    cases hfilled with
    | same => exact hq.tables name columns rows ho
    | grown _ _ rows _ _ => exact hq.tables name columns rows ho

theorem of_stored (hq : SoundAliases db) {v : View} {made : Database} {stored : StoredView}
    (hv : db.Storable v) (h : db.insertView u v = .ok (made, stored)) (hviews : next.views = made.views)
    (hobjects : next.objects = made.objects) : SoundAliases next := by
  have hunused := fun a => @hasObject_of_insertView db made u v stored a h
  obtain ⟨-, -, -, -, points, c, tables, -, hc, htables, rfl⟩ := insertView_eq_ok h
  have haliases : next.aliases = db.aliases ++ v.aliasName.toList.map (·, u) := by
    have hlast : (ViewRow.alias? ⟨u, v.digest, v.toJson.compact⟩) = v.aliasName := ViewRow.alias?_eq hv.reads
    rw [aliases, hviews, List.filterMap_append, ← aliases]
    simp only [List.filterMap_cons, List.filterMap_nil, hlast]
    cases v.aliasName <;> rfl
  constructor
  case columns =>
    rw [hviews]
    refine List.forall_mem_append.2 ⟨hq.columns, List.forall_mem_singleton.2 fun w hw => ?_⟩
    cases hv.reads.symm.trans hw
    exact hv.columns
  case valid =>
    rw [haliases]
    refine List.forall_mem_append.2 ⟨hq.valid, List.forall_mem_map.2 fun a ha => ?_⟩
    exact hv.aliasName a (Option.mem_toList.1 ha)
  case made =>
    rw [haliases, hobjects, aliasViewsOf, List.filterMap_append, List.filterMap_append, ← aliasViewsOf,
      hq.made, htables]
    split <;> cases v.aliasName <;> simp
  case names =>
    rw [haliases, List.map_append, List.nodup_append]
    refine ⟨hq.names, ?_, ?_⟩
    · cases v.aliasName <;> simp
    · rintro _ ha _ hb rfl
      obtain ⟨⟨a, w⟩, hmem, rfl⟩ := List.mem_map.1 ha
      have hnew : v.aliasName = some a := by simpa using hb
      rw [← hq.made, mem_aliasViewsOf] at hmem
      exact Bool.false_ne_true ((hunused a hnew).symm.trans (hasObject_of_aliasView hmem))
  case tables =>
    intro name columns rows ho
    rw [hobjects] at ho
    simp only [List.mem_append, List.mem_cons, List.mem_map, reduceCtorEq, and_false, exists_false,
      or_false] at ho
    obtain ho | ho := ho
    · exact hq.tables name columns rows ho
    · rw [htables] at ho
      split at ho
      · simp at ho
      · cases List.mem_singleton.1 ho
        simp [Sql.Collection.tableName, Sql.tableName, String.toList_append]

theorem alias_eq_iff (hq : SoundAliases db) (huuids : (db.views.map (·.uuid)).Nodup) {row : ViewRow}
    {v : View} (hrow : row ∈ db.views) (hv : row.view = .ok v) {e : String × Uuid} (he : e ∈ db.aliases) :
    v.aliasName.filter View.isIdentifier = some e.1 ↔ e.2 = row.uuid := by
  obtain ⟨a, u⟩ := e
  constructor
  · intro ha
    obtain ⟨ha, -⟩ := Option.filter_eq_some_iff.1 ha
    have hown : (a, row.uuid) ∈ db.aliases :=
      mem_aliases.2 ⟨row, hrow, rfl, by rw [ViewRow.alias?_eq hv, ha]⟩
    exact congrArg Prod.snd (List.inj_on_of_nodup_map hq.names he hown rfl)
  · intro hu
    obtain ⟨r, hr, hru, hra⟩ := mem_aliases.1 he
    cases List.inj_on_of_nodup_map huuids hr hrow (hru.trans hu)
    rw [ViewRow.alias?_eq hv] at hra
    rw [hra, Option.filter_some, if_pos (View.isIdentifier_of_validateAlias (hq.valid _ he))]

theorem of_removed (hq : SoundAliases db) (huuids : (db.views.map (·.uuid)).Nodup) {row : ViewRow}
    {v : View} (hrow : db.viewRow? u = some row) (hv : row.view = .ok v)
    (hviews : next.views = db.views.filter (·.uuid ≠ u)) (hobjects : next.objects =
      db.objects.filter (!servesView u (v.aliasName.filter View.isIdentifier) ·)) : SoundAliases next := by
  have hmem : row ∈ db.views := List.mem_of_find?_eq_some hrow
  have hu : row.uuid = u := by simpa using List.find?_some hrow
  have haliases : next.aliases = db.aliases.filter (·.2 ≠ u) := by
    rw [aliases, hviews, aliases, List.filter_filterMap, List.filterMap_filter]
    refine List.filterMap_congr fun r _ => ?_
    by_cases hr : r.uuid = u <;> cases r.alias? <;> simp [hr, Option.filter_some]
  have hsub : ∀ e, e ∈ next.aliases → e ∈ db.aliases := fun e he => by
    rw [haliases] at he
    exact (List.mem_filter.1 he).1
  refine ⟨fun r hr => ?_, fun e he => hq.valid e (hsub e he), ?_, ?_, fun name columns rows ho => ?_⟩
  · rw [hviews] at hr
    exact hq.columns r (List.mem_filter.1 hr).1
  · rw [hobjects, aliasViewsOf_filter, hq.made, haliases]
    refine List.filter_congr fun e he => ?_
    simp only [ne_eq, hq.alias_eq_iff huuids hmem hv he, hu]
  · rw [haliases]
    exact hq.names.sublist (List.filter_sublist.map _)
  · rw [hobjects] at ho
    exact hq.tables name columns rows (List.mem_filter.1 ho).1

theorem step (hq : SoundAliases db) (hsql : SoundSqlViews db) (h : Step db next) :
    SoundAliases next := by
  cases h.schema with
  | same hviews _ hobjects => exact hq.of_same hviews hobjects
  | stored hv h _ hviews _ hobjects => exact hq.of_stored hv h hviews hobjects
  | removed hrow hv hviews _ hobjects => exact hq.of_removed hsql.uuids hrow hv hviews hobjects

end SoundAliases

theorem soundAliases_ofChanges {cs : List Change} (h : ∀ c ∈ cs, c.AsRead) :
    SoundAliases (ofChanges cs) := by
  have hboth : SoundSqlViews (ofChanges cs) ∧ SoundAliases (ofChanges cs) :=
    ofChanges_keeps h (P := fun db => SoundSqlViews db ∧ SoundAliases db)
      ⟨.empty, .empty⟩ fun hs hq hstep => ⟨hq.1.step hs hstep, hq.2.step hq.1 hstep⟩
  exact hboth.2

/-- A name that the store does not begin its own with is in use just as the alias of a stored view. -/
theorem SoundAliases.hasObject_iff (hq : SoundAliases db)
    (hname : ¬ "collection_".toList <+: name.toList ∧ ¬ "view_".toList <+: name.toList) :
    db.hasObject name = true ↔ ∃ row ∈ db.views, ∃ v, row.view = .ok v ∧ v.aliasName = some name := by
  have hstored : (∃ u, .aliasView name u ∈ db.objects) ↔
      ∃ row ∈ db.views, ∃ v, row.view = .ok v ∧ v.aliasName = some name := by
    simp only [← mem_aliasViewsOf, hq.made, mem_aliases, ViewRow.alias?, Option.bind_eq_some_iff,
      Result.toOption_eq_some]
    grind
  rw [← hstored, hasObject, List.any_eq_true]
  constructor
  · rintro ⟨o, ho, h⟩
    have heq : o.name = name := by simpa using h
    cases o with
    | table n columns rows => exact absurd (heq ▸ hq.tables n columns rows ho) hname.1
    | view u columns =>
      refine absurd ?_ hname.2
      rw [← heq]
      simp [SchemaObject.name, Sql.viewName, String.toList_append]
    | aliasView n u =>
      cases heq
      exact ⟨u, ho⟩
  · rintro ⟨u, ho⟩
    exact ⟨_, ho, by simp [SchemaObject.name]⟩

end Database
end PagePipes
