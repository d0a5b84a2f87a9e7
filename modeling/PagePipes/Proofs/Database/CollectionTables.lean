import PagePipes.Proofs.Database.Aliases
import PagePipes.Proofs.Database.History

set_option autoImplicit false

/-!
# Tables of stored views

Every stored view has a table of its own, whose columns are those of the view and have the points of
its pipes. The table may be older than the view: it stays when a view is removed, and a view that is
stored again under the same alias finds it there. As the name of a table says the digest of its view,
and the keys of pipes say theirs, its columns are still right, unless two stored texts have one digest.
-/
namespace PagePipes

def PipeRow.Digested (row : PipeRow) : Prop :=
  row.key.digest = some (Checksum.Sha1.digestText row.spec)

def ViewRow.Digested (row : ViewRow) : Prop := row.digest = Checksum.Sha1.digestText row.spec

def ViewRow.tableName (row : ViewRow) (v : View) : String :=
  Sql.tableName (v.aliasName.getD row.uuid.identifier) row.digest

theorem Sql.Collection.tableName_of_ofView {u : Uuid} {v : View} {digest spec : String}
    {points : Sql.Points} {c : Sql.Collection} (h : ofView u v digest points = .ok c) :
    c.tableName = ViewRow.tableName ⟨u, digest, spec⟩ v := by
  obtain ⟨columns, -, h⟩ := Result.bind_eq_ok.1 h
  cases Result.pure_eq_ok.1 h
  rfl

namespace Database

variable {db next : Database} {u : Uuid} {k : Key} {name : String} {held : String → Prop}

/-! ## Digests -/

/-- Stored pipes and views are named by the digests of their texts. -/
structure Digested (db : Database) : Prop where
  pipes : ∀ row ∈ db.pipes, row.Digested
  views : ∀ row ∈ db.views, row.Digested

theorem PipesStep.digested {rows : List PipeRow} (hd : ∀ row ∈ db.pipes, row.Digested)
    (h : PipesStep db rows) : ∀ row ∈ rows, row.Digested := by
  cases h with
  | same => exact hd
  | added _ _ _ hq _ =>
    refine List.forall_mem_append.2 ⟨hd, List.forall_mem_singleton.2 ?_⟩
    rw [PipeRow.Digested, Resource.key, hq]
    rfl
  | switched t disabled =>
    refine List.forall_mem_map.2 fun row hrow => ?_
    split <;> exact hd row hrow
  | removed hfree => exact fun row hrow => hd row (List.mem_filter.1 hrow).1

theorem SchemaStep.digested (hd : ∀ row ∈ db.views, row.Digested) (h : SchemaStep db next) :
    ∀ row ∈ next.views, row.Digested := by
  cases h with
  | same hviews _ _ => exact hviews ▸ hd
  | stored hv h _ hviews _ _ =>
    obtain ⟨-, -, -, -, points, c, tables, -, -, -, rfl⟩ := insertView_eq_ok h
    rw [hviews]
    exact List.forall_mem_append.2 ⟨hd, List.forall_mem_singleton.2 rfl⟩
  | removed _ _ hviews _ _ =>
    rw [hviews]
    exact fun row hrow => hd row (List.mem_filter.1 hrow).1

theorem Digested.empty : Digested .empty := ⟨by simp [Database.empty], by simp [Database.empty]⟩

theorem Digested.step (hd : Digested db) (h : Step db next) : Digested next :=
  ⟨h.pipes.digested hd.pipes, h.schema.digested hd.views⟩

/-! ## Points that pipes had -/

/-- A pipe of the key was stored, and had the point. -/
def HadPoint (held : String → Prop) (k : Key) (point : Point) : Prop :=
  ∃ row : PipeRow, row.key = k ∧ row.Digested ∧ held row.spec ∧ ∃ p, row.pipe = .ok p ∧ p.point = point

theorem HadPoint.unique {p q : Point} (hnone : ¬ Collides held) (hp : HadPoint held k p)
    (hq : HadPoint held k q) : p = q := by
  obtain ⟨row, rfl, hrow, hheld, a, ha, rfl⟩ := hp
  obtain ⟨other, hkey, hother, hheld', b, hb, rfl⟩ := hq
  rw [PipeRow.Digested, hkey] at hother
  have hspec : row.spec = other.spec :=
    eq_of_digestText hnone hheld hheld' (Option.some.inj (hrow.symm.trans hother))
  rw [PipeRow.pipe, hspec] at ha
  cases ha.symm.trans hb
  rfl

theorem Sound.hadPoint (hs : db.Sound) (hd : Digested db) (hheld : ∀ row ∈ db.pipes, held row.spec)
    (hk : db.Stores k) : HadPoint held k (db.pointOf k) := by
  obtain ⟨row, hrow, rfl⟩ := hk
  obtain ⟨p, hp, -⟩ := (hs.pipes.each row hrow).reads
  refine ⟨row, rfl, hd.pipes row hrow, hheld row hrow, p, hp, ?_⟩
  exact (pointOf_eq ((pipe_eq hs.pipes.keys hrow).trans hp)).symm

/-! ## Tables -/

def tablesOf (objects : List SchemaObject) : List (String × List Sql.CollectionColumn) :=
  objects.filterMap fun
    | .table name columns _ => some (name, columns)
    | _ => none

theorem mem_tablesOf {objects : List SchemaObject} {columns : List Sql.CollectionColumn} :
    (name, columns) ∈ tablesOf objects ↔ ∃ rows, .table name columns rows ∈ objects := by
  rw [tablesOf, List.mem_filterMap]
  constructor
  · rintro ⟨_ | _ | _, ho, h⟩ <;> cases h
    exact ⟨_, ho⟩
  · exact fun ⟨rows, h⟩ => ⟨_, h, rfl⟩

theorem tablesOf_filled {P : String → List Sql.CollectionColumn → List Sql.Value → Prop}
    {objects others : List SchemaObject} (h : List.Forall₂ (Filled P) objects others) :
    tablesOf others = tablesOf objects :=
  filterMap_filled (fun _ _ _ _ => rfl) h

theorem tablesOf_filter (objects : List SchemaObject) (u : Uuid) (aliasName : Option String) :
    tablesOf (objects.filter (!servesView u aliasName ·)) = tablesOf objects := by
  rw [tablesOf, List.filterMap_filter]
  refine List.filterMap_congr fun o _ => ?_
  cases o <;> simp [servesView]

/-- A row of a view was stored. -/
structure WasView (held : String → Prop) (row : ViewRow) (v : View) : Prop where
  reads : row.view = .ok v
  spec : held row.spec
  digest : row.Digested
  uuid : row.uuid.Proper
  aliasName : ∀ a, v.aliasName = some a → View.isIdentifier a = true

/-- A table was made for a view that was stored. -/
structure MadeAs (held : String → Prop) (table : String × List Sql.CollectionColumn) (row : ViewRow)
    (v : View) : Prop extends WasView held row v where
  name : table.1 = row.tableName v
  columns : List.Forall₂ (fun (c : Column) (col : Sql.CollectionColumn) =>
    col.name = c.name ∧ col.pipe = c.pipe ∧ HadPoint held c.pipe col.point) v.columns table.2

structure SoundTables (held : String → Prop) (db : Database) : Prop where
  names : ((tablesOf db.objects).map (·.1)).Nodup
  made : ∀ table ∈ tablesOf db.objects, ∃ row v, MadeAs held table row v
  stored : ∀ row ∈ db.views, ∀ v, row.view = .ok v → row.tableName v ∈ (tablesOf db.objects).map (·.1)

theorem SoundTables.empty : SoundTables held .empty :=
  ⟨List.nodup_nil, by simp [tablesOf, Database.empty], by simp [Database.empty]⟩

/-- A name in use that begins as those of tables do is the name of a table. -/
theorem SoundAliases.table_of_hasObject (ha : SoundAliases db) (hname : "collection_".toList <+: name.toList)
    (h : db.hasObject name = true) : name ∈ (tablesOf db.objects).map (·.1) := by
  obtain ⟨o, ho, heq⟩ := List.any_eq_true.1 h
  rw [beq_iff_eq] at heq
  cases o with
  | table n columns rows => exact List.mem_map.2 ⟨(n, columns), mem_tablesOf.2 ⟨rows, ho⟩, heq⟩
  | view u columns =>
    rw [← heq, SchemaObject.name, Sql.viewName, String.toList_append] at hname
    obtain ⟨rest, hrest⟩ := hname
    have hfirst := congrArg List.head? hrest
    simp at hfirst
  | aliasView n u =>
    have hvalid := ha.valid (n, u) (ha.made ▸ mem_aliasViewsOf.2 ho)
    cases heq
    exact absurd hname (View.not_reserved_of_validateAlias hvalid _ (by simp [View.reservedStarts]))

theorem hasObject_of_table (h : name ∈ (tablesOf db.objects).map (·.1)) : db.hasObject name = true := by
  obtain ⟨⟨n, columns⟩, htable, rfl⟩ := List.mem_map.1 h
  obtain ⟨rows, ho⟩ := mem_tablesOf.1 htable
  exact List.any_eq_true.2 ⟨_, ho, by simp [SchemaObject.name]⟩

theorem tablesOf_made {c : Sql.Collection} {tables : List SchemaObject} {aliasName : Option String}
    (h : tables = if db.hasObject c.tableName then [] else [.table c.tableName c.columns []]) :
    tablesOf (db.objects ++ tables ++
        .view u c.columns :: aliasName.toList.map fun a => .aliasView a u) =
      tablesOf db.objects ++ if db.hasObject c.tableName then [] else [(c.tableName, c.columns)] := by
  have hviews : tablesOf (.view u c.columns :: aliasName.toList.map fun a => .aliasView a u) = [] := by
    cases aliasName <;> rfl
  rw [h, tablesOf, List.filterMap_append, List.filterMap_append, ← tablesOf, ← tablesOf, ← tablesOf,
    hviews, List.append_nil]
  split <;> rfl

/-- Tables keep names of their own, as a table is only made where its name is free. -/
theorem SchemaStep.nodup_tableNames (hnames : ((tablesOf db.objects).map (·.1)).Nodup)
    (h : SchemaStep db next) : ((tablesOf next.objects).map (·.1)).Nodup := by
  cases h with
  | same _ _ hobjects => rwa [tablesOf_filled hobjects]
  | removed _ _ _ _ hobjects => rwa [hobjects, tablesOf_filter]
  | stored _ h _ _ _ hobjects =>
    obtain ⟨-, -, -, -, points, c, tables, -, -, htables, rfl⟩ := insertView_eq_ok h
    rw [hobjects, tablesOf_made htables]
    by_cases hused : db.hasObject c.tableName = true
    · rwa [if_pos hused, List.append_nil]
    · rw [if_neg hused, List.map_append, List.map_singleton, List.nodup_append]
      refine ⟨hnames, List.nodup_singleton _, ?_⟩
      rintro name hmem _ hlast rfl
      rw [List.mem_singleton.1 hlast] at hmem
      exact hused (hasObject_of_table hmem)

/-- The table of a new view has its columns, with the points of the stored pipes. -/
theorem madeAs_of_ofView {v : View} {points : Sql.Points} {c : Sql.Collection} (hs : db.Sound)
    (hd : Digested db) (hheld : ∀ row ∈ db.pipes, held row.spec) (hv : db.Storable v)
    (hpoints : db.points v = .ok points) (hc : Sql.Collection.ofView u v v.digest points = .ok c)
    (hspec : held v.toJson.compact) (hu : u.Proper) :
    MadeAs held (c.tableName, c.columns) ⟨u, v.digest, v.toJson.compact⟩ v where
  reads := hv.reads
  spec := hspec
  digest := rfl
  uuid := hu
  aliasName a ha := View.isIdentifier_of_validateAlias (hv.aliasName a ha)
  name := Sql.Collection.tableName_of_ofView hc
  columns := by
    refine ((List.forall₂_and_left v.columns c.columns).2
      ⟨fun d hd => hd, columns_of_ofView hpoints hc⟩).imp ?_
    rintro d col ⟨hmem, hname, hpipe, hpoint⟩
    refine ⟨hname, hpipe, hpoint ▸ hs.hadPoint hd hheld ?_⟩
    exact (hv.pipes d.pipe (List.mem_map_of_mem hmem)).1

theorem SoundTables.of_stored {v : View} {made : Database} {stored : StoredView}
    (ht : SoundTables held db) (hs : db.Sound) (hd : Digested db) (ha : SoundAliases db)
    (hv : db.Storable v) (h : db.insertView u v = .ok (made, stored)) (hpipes : next.pipes = db.pipes)
    (hviews : next.views = made.views) (hobjects : next.objects = made.objects)
    (hnames : ((tablesOf next.objects).map (·.1)).Nodup) (hnext : Remembered held next) :
    SoundTables held next := by
  obtain ⟨-, -, -, -, points, c, tables, hpoints, hc, htables, rfl⟩ := insertView_eq_ok h
  obtain ⟨hspec, hu⟩ := hnext.views ⟨u, v.digest, v.toJson.compact⟩ (by simp [hviews])
  have hmade := madeAs_of_ofView hs hd (hpipes ▸ hnext.pipes) hv hpoints hc hspec hu
  have hnow : tablesOf next.objects = tablesOf db.objects ++
      if db.hasObject c.tableName then [] else [(c.tableName, c.columns)] :=
    hobjects ▸ tablesOf_made htables
  by_cases hused : db.hasObject c.tableName = true
  · rw [if_pos hused, List.append_nil] at hnow
    refine ⟨hnames, hnow ▸ ht.made, ?_⟩
    rw [hviews, hnow]
    refine List.forall_mem_append.2 ⟨ht.stored, List.forall_mem_singleton.2 fun w hw => ?_⟩
    cases hv.reads.symm.trans hw
    have hname : c.tableName = _ := hmade.name
    refine hname ▸ ha.table_of_hasObject ?_ hused
    simp [Sql.Collection.tableName, Sql.tableName, String.toList_append]
  · rw [if_neg hused] at hnow
    refine ⟨hnames, ?_, ?_⟩
    · rw [hnow]
      exact List.forall_mem_append.2 ⟨ht.made, List.forall_mem_singleton.2 ⟨_, v, hmade⟩⟩
    · rw [hviews, hnow, List.map_append]
      refine List.forall_mem_append.2 ⟨fun row hrow w hw => ?_, List.forall_mem_singleton.2 fun w hw => ?_⟩
      · exact List.mem_append_left _ (ht.stored row hrow w hw)
      · cases hv.reads.symm.trans hw
        exact List.mem_append_right _ (List.mem_singleton.2 hmade.name.symm)

theorem SoundTables.step (ht : SoundTables held db) (hs : db.Sound) (hd : Digested db)
    (ha : SoundAliases db) (h : Step db next) (hnext : Remembered held next) :
    SoundTables held next := by
  have hnames := h.schema.nodup_tableNames ht.names
  cases h.schema with
  | same hviews _ hobjects =>
    have htables := tablesOf_filled hobjects
    exact ⟨hnames, htables ▸ ht.made, hviews ▸ htables ▸ ht.stored⟩
  | removed _ _ hviews _ hobjects =>
    have htables : tablesOf next.objects = tablesOf db.objects := by rw [hobjects, tablesOf_filter]
    refine ⟨hnames, htables ▸ ht.made, fun row hrow => ?_⟩
    rw [hviews] at hrow
    exact htables ▸ ht.stored row (List.mem_filter.1 hrow).1
  | stored hv h hpipes hviews _ hobjects =>
    exact ht.of_stored hs hd ha hv h hpipes hviews hobjects hnames hnext

/-! ## The table of a stored view -/

/-- The columns of a view as a table has them. -/
def columnsOf (db : Database) (v : View) : List Sql.CollectionColumn :=
  v.columns.map fun c => ⟨c.name, c.pipe, db.pointOf c.pipe⟩

/-- Each stored view has a table of its own, with its columns. -/
structure Tabled (db : Database) : Prop where
  names : ((tablesOf db.objects).map (·.1)).Nodup
  made : ∀ row ∈ db.views, ∀ v, row.view = .ok v → (row.tableName v, db.columnsOf v) ∈ tablesOf db.objects
  distinct : ∀ row ∈ db.views, ∀ other ∈ db.views, ∀ v w, row.view = .ok v → other.view = .ok w →
    row.tableName v = other.tableName w → row = other

/-- The digests of two texts that were stored at some time are equal. -/
def DigestsCollide (cs : List Change) : Prop := Collides (Held cs)

/-- The digests do not collide when all that is ever stored is among some texts of different digests. -/
theorem not_digestsCollide {cs : List Change} {texts : List String}
    (hheld : ∀ before, before <+: cs → ∀ s ∈ (ofChanges before).specs, s ∈ texts)
    (hdigests : (texts.map Checksum.Sha1.digestText).Nodup) : ¬ DigestsCollide cs := by
  rintro ⟨s, t, ⟨before, hbefore, hs⟩, ⟨other, hother, ht⟩, hne, hdigest⟩
  exact hne (List.inj_on_of_nodup_map hdigests (hheld before hbefore s hs) (hheld other hother t ht) hdigest)

section

variable {row other : ViewRow} {v w : View}

theorem isSafe_name (haliasName : ∀ a, v.aliasName = some a → View.isIdentifier a = true) (u : Uuid) :
    Sql.IsSafe (v.aliasName.getD u.identifier) := by
  cases ha : v.aliasName with
  | none => exact Sql.isSafe_identifier u
  | some a => exact Sql.isSafe_of_isIdentifier (haliasName a ha)

/-- The name of a table says the text of its view, and its alias or its identifier. -/
theorem WasView.eq_of_tableName (hnone : ¬ Collides held) (h : WasView held row v)
    (h' : WasView held other w) (hname : row.tableName v = other.tableName w) :
    v = w ∧ v.aliasName.getD row.uuid.identifier = w.aliasName.getD other.uuid.identifier := by
  have hdigest : row.digest = Checksum.Sha1.digestText row.spec := h.digest
  have hdigest' : other.digest = Checksum.Sha1.digestText other.spec := h'.digest
  rw [ViewRow.tableName, ViewRow.tableName, hdigest, hdigest'] at hname
  obtain ⟨hnames, hdigests⟩ := Sql.tableName_injective (isSafe_name h.aliasName row.uuid)
    (isSafe_name h'.aliasName other.uuid) (Sql.isSafe_digestText _) (Sql.isSafe_digestText _)
    (by rw [Sql.length_digestText, Sql.length_digestText]) hname
  refine ⟨?_, hnames⟩
  have hreads := h.reads
  rw [ViewRow.view, eq_of_digestText hnone h.spec h'.spec hdigests] at hreads
  cases hreads.symm.trans h'.reads
  rfl

theorem wasView_of_mem (hd : Digested db) (ha : SoundAliases db) (hheld : Remembered held db)
    (hrow : row ∈ db.views) (hv : row.view = .ok v) : WasView held row v where
  reads := hv
  spec := (hheld.views row hrow).1
  digest := hd.views row hrow
  uuid := (hheld.views row hrow).2
  aliasName a halias := View.isIdentifier_of_validateAlias <|
    ha.valid (a, row.uuid) (mem_aliases.2 ⟨row, hrow, rfl, by rw [ViewRow.alias?_eq hv, halias]⟩)

theorem MadeAs.columns_eq {table : String × List Sql.CollectionColumn} (hnone : ¬ Collides held)
    (h : MadeAs held table row v) (hpoints : ∀ c ∈ v.columns, HadPoint held c.pipe (db.pointOf c.pipe)) :
    table.2 = db.columnsOf v := by
  rw [columnsOf, ← List.forall₂_eq_eq_eq, List.forall₂_map_right_iff]
  refine ((List.forall₂_and_left v.columns table.2).2 ⟨hpoints, h.columns⟩).flip.imp ?_
  rintro ⟨name, pipe, point⟩ c ⟨hpoint, rfl, rfl, hhad⟩
  exact congrArg _ (hhad.unique hnone hpoint)

theorem tabled (hnone : ¬ Collides held) (hs : db.Sound) (hd : Digested db) (ha : SoundAliases db)
    (huuids : (db.views.map (·.uuid)).Nodup) (ht : SoundTables held db) (hheld : Remembered held db) :
    Tabled db where
  names := ht.names
  made row hrow v hv := by
    obtain ⟨table, htable, hname⟩ := List.mem_map.1 (ht.stored row hrow v hv)
    obtain ⟨other, w, hmade⟩ := ht.made table htable
    obtain ⟨rfl, -⟩ := (wasView_of_mem hd ha hheld hrow hv).eq_of_tableName hnone hmade.toWasView
      (hname.symm.trans hmade.name)
    have hcolumns : table.2 = db.columnsOf v := hmade.columns_eq hnone fun c hc =>
      hs.hadPoint hd hheld.pipes (hs.linked_of_column hrow hv hc).2
    rwa [← hcolumns, ← hname]
  distinct row hrow other hother v w hv hw hname := by
    obtain ⟨rfl, hnames⟩ := (wasView_of_mem hd ha hheld hrow hv).eq_of_tableName hnone
      (wasView_of_mem hd ha hheld hother hw) hname
    refine List.inj_on_of_nodup_map huuids hrow hother ?_
    cases halias : v.aliasName with
    | none =>
      rw [halias] at hnames
      exact Uuid.identifier_injective (hheld.views row hrow).2 (hheld.views other hother).2 hnames
    | some a =>
      have hmem : ∀ r ∈ db.views, r.view = .ok v → (a, r.uuid) ∈ db.aliases := fun r hr hrv =>
        mem_aliases.2 ⟨r, hr, rfl, by rw [ViewRow.alias?_eq hrv, halias]⟩
      have hpair := List.inj_on_of_nodup_map ha.names (hmem row hrow hv) (hmem other hother hw) rfl
      exact congrArg Prod.snd hpair

end

/-- After any changes each stored view has a table of its own with its columns, unless two texts that
were stored have one digest. -/
theorem tabled_ofChanges {cs : List Change} (hread : ∀ c ∈ cs, c.AsRead)
    (hproper : ∀ c ∈ cs, c.DrawsProper) (hnone : ¬ DigestsCollide cs) : Tabled (ofChanges cs) := by
  have hall : SoundTables (Held cs) (ofChanges cs) ∧ Digested (ofChanges cs) ∧
      SoundSqlViews (ofChanges cs) ∧ SoundAliases (ofChanges cs) := by
    refine ofChanges_keeps_remembered hread hproper (P := fun db => SoundTables (Held cs) db ∧
      Digested db ∧ SoundSqlViews db ∧ SoundAliases db) ⟨.empty, .empty, .empty, .empty⟩ ?_
    rintro db next hs ⟨ht, hd, hsql, ha⟩ hstep hnext
    exact ⟨ht.step hs hd ha hstep hnext, hd.step hstep, hsql.step hs hstep, ha.step hsql hstep⟩
  obtain ⟨ht, hd, hsql, ha⟩ := hall
  exact tabled hnone (sound_ofChanges hread) hd ha hsql.uuids ht
    (remembered_ofChanges hproper List.prefix_rfl)

end Database
end PagePipes
