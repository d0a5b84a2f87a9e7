import PagePipes.Proofs.Database.CollectionTables
import PagePipes.Proofs.Database.Exchanges
import PagePipes.Proofs.Sql.Arguments

set_option autoImplicit false

/-!
# What reported values add to tables

A collection gets a row from a report just when one of its columns has a value and every column that
needs a value has one. The row has the values at their columns, and null at the others; it stays away
when an equal row without a null is there. All other rows and tables stay as they are.
-/
namespace PagePipes

open Sql (CollectionColumn)

/-- A value that a point takes, and that is a number where the point asks for one. -/
def Point.Accepts (p : Point) (j : Json) : Prop :=
  ∃ a, Sql.Argument.ofJson p j = .ok a ∧ ∀ x, a = .float x → x.isNaN = false

namespace Sql

variable {p : Point}

theorem Value.inColumn_ne_null {v : Value} (hv : v ≠ .null) : v.inColumn p ≠ .null := by
  unfold inColumn
  split
  · exact hv
  · split
    · cases v <;> simp_all [inReals]
    · exact hv

end Sql

namespace Database

variable {db : Database} {value : Key → Option Json} {columns : List CollectionColumn}
  {rows : List (List Sql.Value)} {name : String} {names : List String} {objects : List SchemaObject}

theorem keptAs_ne_null {p : Point} {j : Json} (h : p.Accepts j) (hp : p.nullable = false) :
    keptAs p (some j) ≠ .null := by
  obtain ⟨a, ha, hnumber⟩ := h
  have hnull := Sql.Argument.ne_null_of_ofJson ha hp
  rw [keptAs, Option.map_some, Option.getD_some, storedAs_of_ok ha]
  refine Sql.Value.inColumn_ne_null ?_
  cases a with
  | null => exact absurd rfl hnull
  | float x => simp [Sql.Value.ofArgument, hnumber x rfl]
  | bytes | text | bool | int => simp [Sql.Value.ofArgument]

/-! ## Rows of a report -/

/-- The columns take the values for their pipes. -/
def Takes (value : Key → Option Json) (columns : List CollectionColumn) : Prop :=
  ∀ col ∈ columns, ∀ j, value col.pipe = some j → col.point.Accepts j

/-- Every column that needs a value has one. -/
def Complete (value : Key → Option Json) (columns : List CollectionColumn) : Prop :=
  ∀ col ∈ columns, col.point.nullable = false → (value col.pipe).isSome

/-- The values fill a row: some column has one, and every column that needs one. -/
def Fills (value : Key → Option Json) (columns : List CollectionColumn) : Prop :=
  (∃ col ∈ columns, (value col.pipe).isSome) ∧ Complete value columns

instance : Decidable (Fills value columns) :=
  inferInstanceAs (Decidable ((∃ col ∈ columns, (value col.pipe).isSome) ∧
    ∀ col ∈ columns, col.point.nullable = false → (value col.pipe).isSome))

/-- The row of the values, as the table keeps it. -/
def rowOf (value : Key → Option Json) (columns : List CollectionColumn) : List Sql.Value :=
  columns.map fun col => keptAs col.point (value col.pipe)

/-- The rows that the values add to a table: one, or none. -/
def addedRows (value : Key → Option Json) (columns : List CollectionColumn)
    (rows : List (List Sql.Value)) : List (List Sql.Value) :=
  if Fills value columns ∧ ¬ rows.any (conflicts (rowOf value columns)) then [rowOf value columns]
  else []

/-- The tables of the given names get the rows that the values add to them. -/
def feed (value : Key → Option Json) (names : List String) : SchemaObject → SchemaObject
  | .table name columns rows =>
    if name ∈ names then .table name columns (rows ++ addedRows value columns rows)
    else .table name columns rows
  | o => o

def rowCount (objects : List SchemaObject) : Nat :=
  (objects.map fun
    | .table _ _ rows => rows.length
    | _ => 0).sum

theorem addedRows_of_not_fills (h : ¬ Fills value columns) : addedRows value columns rows = [] :=
  if_neg fun hboth => h hboth.1

theorem feed_nil (o : SchemaObject) : feed value [] o = o := by
  cases o <;> rfl

theorem feed_cons (hname : name ∉ names) (o : SchemaObject) :
    feed value names (feed value [name] o) = feed value (name :: names) o := by
  cases o with
  | table n columns rows =>
    by_cases hn : n = name
    · subst hn
      simp [feed, hname]
    · simp [feed, hn]
  | view | aliasView => rfl

theorem map_feed_eq_self (h : ∀ name ∈ names, ∀ columns, (name, columns) ∈ tablesOf objects →
    ¬ Fills value columns) : objects.map (feed value names) = objects := by
  rw [List.map_congr_left fun o ho => ?_, List.map_id]
  cases o with
  | table n columns rows =>
    by_cases hn : n ∈ names
    · have hempty : addedRows value columns rows = [] :=
        addedRows_of_not_fills (h n hn columns (mem_tablesOf.2 ⟨rows, ho⟩))
      simp [feed, hempty]
    · simp [feed, hn]
  | view | aliasView => rfl

theorem tablesOf_map_feed (objects : List SchemaObject) :
    tablesOf (objects.map (feed value names)) = tablesOf objects := by
  rw [tablesOf, List.filterMap_map, tablesOf]
  refine List.filterMap_congr fun o _ => ?_
  cases o with
  | table n columns rows =>
    by_cases hn : n ∈ names <;> simp [feed, hn]
  | view | aliasView => rfl

/-! ## Inserting a row -/

theorem lacking?_rowOf (hneeded : Complete value columns) (haccepts : Takes value columns) :
    lacking? columns (rowOf value columns) = none := by
  rw [lacking?, Option.map_eq_none_iff, rowOf, ← List.map_prod_left_eq_zip, List.find?_eq_none]
  refine List.forall_mem_map.2 fun col hcol => ?_
  rw [Bool.and_eq_true, Bool.not_eq_true', beq_iff_eq, not_and]
  intro hnullable
  obtain ⟨j, hj⟩ := Option.isSome_iff_exists.1 (hneeded col hcol hnullable)
  rw [hj]
  exact keptAs_ne_null (haccepts col hcol j hj) hnullable

theorem insertRow_eq (hfills : Fills value columns) (haccepts : Takes value columns) :
    insertRow name columns rows (rowOf value columns) =
      .ok (rows ++ addedRows value columns rows, (addedRows value columns rows).length) := by
  rw [insertRow, lacking?_rowOf hfills.2 haccepts, addedRows]
  by_cases hconflict : rows.any (conflicts (rowOf value columns)) = true
  · simp [hconflict]
  · simp [hconflict, hfills]

theorem rowCount_cons (o : SchemaObject) (objects : List SchemaObject) :
    rowCount (o :: objects) = rowCount [o] + rowCount objects := by
  simp [rowCount]

section

variable {cells : List (CollectionColumn × Sql.Argument)}

theorem insertInto_head (hrow : tableRow columns cells = rowOf value columns)
    (hfills : Fills value columns) (haccepts : Takes value columns)
    (honly : ∀ cols, (name, cols) ∉ tablesOf objects) :
    insertInto name cells (.table name columns rows :: objects) =
        .ok ((SchemaObject.table name columns rows :: objects).map (feed value [name]),
          (addedRows value columns rows).length) ∧
      rowCount ((SchemaObject.table name columns rows :: objects).map (feed value [name])) =
        rowCount (.table name columns rows :: objects) + (addedRows value columns rows).length := by
  have hsame : objects.map (feed value [name]) = objects := map_feed_eq_self fun n hn cols hcols => by
    rw [List.mem_singleton.1 hn] at hcols
    exact absurd hcols (honly cols)
  rw [List.map_cons, hsame]
  constructor
  · rw [insertInto, if_pos rfl, hrow, insertRow_eq hfills haccepts]
    simp [feed]
  · simp [feed, rowCount, Nat.add_right_comm]

theorem insertInto_eq (hrow : tableRow columns cells = rowOf value columns)
    (hfills : Fills value columns) (haccepts : Takes value columns)
    (hnames : ((tablesOf objects).map (·.1)).Nodup) (hmem : (name, columns) ∈ tablesOf objects) :
    ∃ n, insertInto name cells objects = .ok (objects.map (feed value [name]), n) ∧
      rowCount (objects.map (feed value [name])) = rowCount objects + n := by
  induction objects with
  | nil => cases hmem
  | cons o rest ih =>
    cases o with
    | table other others rows =>
      obtain ⟨hother, hrest⟩ := List.nodup_cons.1 hnames
      have honly : ∀ cols, (other, cols) ∉ tablesOf rest := fun cols hcols =>
        hother (List.mem_map.2 ⟨_, hcols, rfl⟩)
      obtain hhead | hlast := List.mem_cons.1 hmem
      · cases hhead
        exact ⟨_, insertInto_head hrow hfills haccepts honly⟩
      · have hne : other ≠ name := fun heq => honly columns (heq ▸ hlast)
        obtain ⟨n, hn, hcount⟩ := ih hrest hlast
        refine ⟨n, ?_, ?_⟩
        · rw [insertInto, if_neg hne, hn]
          simp [feed, hne]
        · rw [List.map_cons, rowCount_cons, hcount, rowCount_cons (.table other others rows)]
          simp [feed, hne, Nat.add_assoc]
    | view u others | aliasView other u =>
      obtain ⟨n, hn, hcount⟩ := ih hnames hmem
      refine ⟨n, ?_, ?_⟩
      · rw [insertInto, hn]
        · rfl
        · simp
      · rw [List.map_cons, rowCount_cons, hcount, rowCount_cons _ rest]
        simp [feed, Nat.add_assoc]

end

/-! ## Filling collections -/

section

variable {results : List PipeResult} {c : Sql.Collection} {all : List Sql.Collection}

open Sql.Collection (reported?)

theorem reported?_isSome {k : Key} : (reported? results k).isSome ↔ ∃ r ∈ results, r.pipe = k := by
  rw [reported?, Option.isSome_map, List.find?_isSome]
  simp

theorem covers_iff : (results.any fun r => c.covers r.pipe) = true ↔
    ∃ col ∈ c.columns, (reported? results col.pipe).isSome := by
  simp only [reported?_isSome, List.any_eq_true, Sql.Collection.covers, beq_iff_eq]
  grind

/-- The cells of a row are found unless a column that needs a value has none. -/
theorem cells_succeed (haccepts : Takes (reported? results) columns) :
    ∃ found?, Sql.Collection.cells results columns = .ok found? ∧
      (found?.isSome ↔ Complete (reported? results) columns) := by
  unfold Complete
  induction columns with
  | nil => exact ⟨some [], rfl, by simp⟩
  | cons col rest ih =>
    obtain ⟨hcol, hrest⟩ := List.forall_mem_cons.1 haccepts
    obtain ⟨found?, hfound, hiff⟩ := ih hrest
    rw [Sql.Collection.cells]
    simp only [List.forall_mem_cons]
    cases hj : reported? results col.pipe with
    | some j =>
      obtain ⟨a, ha, -⟩ := hcol j hj
      refine ⟨found?.map ((col, a) :: ·), ?_, ?_⟩
      · simp only [ha, hfound, Result.ok_bind]
        rfl
      · simp [hiff]
    | none =>
      cases hnullable : col.point.nullable with
      | true => exact ⟨found?, by simp [hfound], by simp [hiff]⟩
      | false => exact ⟨none, by simp, by simp⟩

theorem tableRow_eq {found : List (CollectionColumn × Sql.Argument)}
    (h : Sql.Collection.cells results columns = .ok (some found)) (hnames : (columns.map (·.name)).Nodup) :
    tableRow columns found = rowOf (reported? results) columns := by
  have hcells : ∀ cell ∈ columns.zip (tableRow columns found),
      cell.2 = keptAs cell.1.point (reported? results cell.1.pipe) := fun cell hcell =>
    Collection.value_of_tableRow h hnames hcell (List.of_mem_zip hcell).1
  rw [tableRow, ← List.map_prod_left_eq_zip] at hcells
  exact List.map_congr_left fun col hcol => hcells _ (List.mem_map_of_mem hcol)

theorem row?_of_fills (hnames : (c.columns.map (·.name)).Nodup)
    (haccepts : Takes (reported? results) c.columns)
    (hfills : Fills (reported? results) c.columns) : ∃ found, c.row? results = .ok (some found) ∧
      tableRow c.columns found = rowOf (reported? results) c.columns := by
  obtain ⟨found?, hcells, hiff⟩ := cells_succeed haccepts
  obtain ⟨found, rfl⟩ := Option.isSome_iff_exists.1 (hiff.2 hfills.2)
  obtain ⟨col, hcol, hvalue⟩ := hfills.1
  obtain ⟨j, hj⟩ := Option.isSome_iff_exists.1 hvalue
  obtain ⟨a, ha⟩ := (Collection.cells_eq_ok hcells).2 col hcol j hj
  refine ⟨found, ?_, tableRow_eq hcells hnames⟩
  have hsome : found.isEmpty = false := List.isEmpty_eq_false_iff_exists_mem.2 ⟨_, ha⟩
  rw [Sql.Collection.row?, hcells, Result.ok_bind]
  simp [hsome, Option.filter_some, pure, Except.pure]

theorem row?_of_not_fills (haccepts : Takes (reported? results) c.columns)
    (h : ¬ Fills (reported? results) c.columns) : c.row? results = .ok none := by
  obtain ⟨found?, hcells, hiff⟩ := cells_succeed haccepts
  rw [Sql.Collection.row?, hcells, Result.ok_bind]
  cases found? with
  | none => rfl
  | some found =>
    have hempty : found = [] := List.eq_nil_iff_forall_not_mem.2 fun cell hcell => by
      obtain ⟨hmem, j, hj, -⟩ := (Collection.cells_eq_ok hcells).1 cell hcell
      exact h ⟨⟨cell.1, hmem, by rw [hj]; rfl⟩, hiff.1 rfl⟩
    rw [hempty]
    rfl

theorem fill_eq {n : Nat} (hnames : (c.columns.map (·.name)).Nodup)
    (haccepts : Takes (reported? results) c.columns)
    (htables : ((tablesOf objects).map (·.1)).Nodup) (hmem : (c.tableName, c.columns) ∈ tablesOf objects) :
    ∃ added, fill results (objects, n) c =
        .ok (objects.map (feed (reported? results) [c.tableName]), n + added) ∧
      rowCount (objects.map (feed (reported? results) [c.tableName])) = rowCount objects + added := by
  by_cases hfills : Fills (reported? results) c.columns
  · obtain ⟨found, hfound, hrow⟩ := row?_of_fills hnames haccepts hfills
    obtain ⟨added, hinsert, hcount⟩ := insertInto_eq hrow hfills haccepts htables hmem
    refine ⟨added, ?_, hcount⟩
    rw [fill, covers_iff.2 hfills.1, hfound]
    simp only [Bool.not_true, Bool.false_eq_true, ↓reduceIte, Result.ok_bind, hinsert]
    rfl
  · have hsame : objects.map (feed (reported? results) [c.tableName]) = objects :=
      map_feed_eq_self fun name hname columns hcolumns => by
        rw [List.mem_singleton.1 hname] at hcolumns
        cases List.inj_on_of_nodup_map htables hcolumns hmem rfl
        exact hfills
    refine ⟨0, ?_, by rw [hsame, Nat.add_zero]⟩
    rw [hsame, fill, row?_of_not_fills haccepts hfills]
    split <;> rfl

/-- Filling collections of different tables adds a row of the values to each of the tables that they
fill. -/
theorem fill_all_eq {n : Nat} (hdistinct : (all.map (·.tableName)).Nodup)
    (htables : ((tablesOf objects).map (·.1)).Nodup)
    (hall : ∀ c ∈ all, (c.columns.map (·.name)).Nodup ∧ (c.tableName, c.columns) ∈ tablesOf objects ∧
      Takes (reported? results) c.columns) :
    ∃ added, all.foldlM (fill results) (objects, n) =
        .ok (objects.map (feed (reported? results) (all.map (·.tableName))), n + added) ∧
      rowCount (objects.map (feed (reported? results) (all.map (·.tableName)))) =
        rowCount objects + added := by
  induction all generalizing objects n with
  | nil =>
    have hsame : objects.map (feed (reported? results) []) = objects := by
      rw [List.map_congr_left fun o _ => feed_nil o, List.map_id']
    exact ⟨0, by rw [List.map_nil, hsame]; rfl, by rw [List.map_nil, hsame, Nat.add_zero]⟩
  | cons c rest ih =>
    obtain ⟨hfresh, hrest⟩ := List.nodup_cons.1 hdistinct
    obtain ⟨⟨hnames, hmem, haccepts⟩, hothers⟩ := List.forall_mem_cons.1 hall
    obtain ⟨first, hfill, hcount⟩ := fill_eq (n := n) hnames haccepts htables hmem
    have hkept : tablesOf (objects.map (feed (reported? results) [c.tableName])) = tablesOf objects :=
      tablesOf_map_feed objects
    obtain ⟨more, hfills, hcounts⟩ := ih (n := n + first) hrest (hkept.symm ▸ htables)
      fun d hd => ⟨(hothers d hd).1, hkept.symm ▸ (hothers d hd).2.1, (hothers d hd).2.2⟩
    have hboth : (objects.map (feed (reported? results) [c.tableName])).map
        (feed (reported? results) (rest.map (·.tableName))) =
          objects.map (feed (reported? results) ((c :: rest).map (·.tableName))) := by
      rw [List.map_map]
      exact List.map_congr_left fun o _ => feed_cons hfresh o
    rw [hboth] at hfills hcounts
    refine ⟨first + more, ?_, by rw [hcounts, hcount, Nat.add_assoc]⟩
    rw [List.foldlM_cons, hfill, Result.ok_bind, hfills, Nat.add_assoc]

end

end Database
end PagePipes
