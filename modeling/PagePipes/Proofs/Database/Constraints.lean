import PagePipes.Proofs.Database.Filling

set_option autoImplicit false

/-!
# Constraints of collection tables

A column forbids null unless its point allows it, takes nothing but texts of JSON arrays where its point
is repeated, and no negative number where it is unsigned. The value that a report gives passes all of
these, except that a float which is not a number is stored as null.
-/
namespace PagePipes
namespace Sql

/-- A constraint on the values of a column. -/
inductive Constraint
  | notNull
  | list
  | notNegative
  deriving DecidableEq, Repr

namespace Constraint

/-- The constraint as the definition of a column states it. -/
def text (column : String) : Constraint → String
  | .notNull => " NOT NULL"
  | .list => " CHECK (json_valid(" ++ column ++ ") AND json_type(" ++ column ++ ") = 'array')"
  | .notNegative => " CHECK (" ++ column ++ " >= 0)"

/-- The text is read as a JSON array, from end to end. -/
def IsList (s : String) : Prop :=
  (Document.read s).2 = true ∧ ∃ items, (Document.read s).1.toJson? = some (.arr items)

/-- Whether a value passes. A check of null is null, which is no failure. -/
def Allows : Constraint → Value → Prop
  | .notNull, v => v ≠ .null
  | .list, .null => True
  | .list, .text s => IsList s
  | .list, _ => False
  | .notNegative, .null => True
  | .notNegative, .int n => 0 ≤ n
  | .notNegative, _ => False

end Constraint
end Sql

/-- The constraints on a column for values of the point. -/
def Point.constraints (p : Point) : List Sql.Constraint :=
  (if p.nullable then [] else [.notNull]) ++
    if p.repeated then [.list] else if p.scalar = .uint64 then [.notNegative] else []

/-- A value that the point takes as a float which is not a number. -/
def Point.TakesNaN (p : Point) (j : Json) : Prop :=
  p.repeated = false ∧ p.scalar = .float64 ∧ ∃ x, Sql.Argument.float? j = some x ∧ x.isNaN = true

namespace Sql

variable {p : Point} {j : Json} {a : Argument} {rule : Constraint} {items : List Json}

theorem columnDefinition_eq (name : String) (p : Point) :
    columnDefinition name p = quoteName name ++ " " ++ columnType p ++
      String.join (p.constraints.map (Constraint.text (quoteName name))) := by
  have hnull : String.join ((if p.nullable then [] else [Constraint.notNull]).map
      (Constraint.text (quoteName name))) = if p.nullable then "" else " NOT NULL" := by
    cases p.nullable <;> rfl
  have hcheck : String.join ((if p.repeated then [Constraint.list]
      else if p.scalar = .uint64 then [.notNegative] else []).map (Constraint.text (quoteName name))) =
      if p.repeated then Constraint.text (quoteName name) .list
      else if p.scalar = .uint64 then Constraint.text (quoteName name) .notNegative else "" := by
    cases p.repeated
    · cases p.scalar <;> rfl
    · rfl
  rw [columnDefinition, Point.constraints, List.map_append, String.join_append, hnull, hcheck,
    ← String.append_assoc]
  rfl

theorem notNull_mem : .notNull ∈ p.constraints ↔ p.nullable = false := by
  rw [Point.constraints]
  cases p.nullable <;> cases p.repeated <;> cases p.scalar <;> simp

theorem list_mem : .list ∈ p.constraints ↔ p.repeated = true := by
  rw [Point.constraints]
  cases p.nullable <;> cases p.repeated <;> cases p.scalar <;> simp

theorem notNegative_mem : .notNegative ∈ p.constraints ↔ p.repeated = false ∧ p.scalar = .uint64 := by
  rw [Point.constraints]
  cases p.nullable <;> cases p.repeated <;> cases p.scalar <;> simp

/-! ## Lists -/

theorem plain_of_takes {s : Scalar} (h : Argument.Takes s j a) : j.depth = 0 ∧ j.Sorted := by
  cases j with
  | arr | obj =>
    cases h with
    | int64 h | uint64 h | float64 h => cases h
  | _ => exact ⟨rfl, trivial⟩

theorem isList_compact (hread : (Json.arr items).Readable)
    (h : ∀ item ∈ items, item.depth = 0 ∧ item.Sorted) : Constraint.IsList (Json.arr items).compact := by
  have hdepth : (Json.arr items).depth < Document.depthLimit := by
    have hzero : Json.depthItems items ≤ 0 := Json.depthItems_le.2 fun j hj => (h j hj).1.le
    have hone : (Json.arr items).depth = Json.depthItems items + 1 := rfl
    have hlimit : 1 < Document.depthLimit := by decide
    omega
  have hsorted : (Json.arr items).Sorted := Json.sortedItems_iff.2 fun j hj => (h j hj).2
  have hplace : Document.ofJsonAt 0 (Json.arr items).reread = .ofJson (Json.arr items).reread :=
    Document.ofJsonAt_eq (by rwa [Json.depth_reread, Nat.zero_add])
  rw [Constraint.IsList, Document.read_compact hread, hplace,
    Document.toJson?_ofJson (Json.sorted_reread hsorted)]
  exact ⟨rfl, _, rfl⟩

/-! ## Values -/

theorem ofArgument_eq_null : Value.ofArgument a = .null ↔
    a = .null ∨ ∃ x, a = .float x ∧ x.isNaN = true := by
  cases a with
  | float x => cases hx : x.isNaN <;> simp [Value.ofArgument, hx]
  | null | bytes | text | bool | int => simp [Value.ofArgument]

/-- What is kept for a value is null just where the value is no number. -/
theorem kept_ne_null_iff (h : Argument.ofJson p j = .ok a) (hp : p.nullable = false) :
    (Value.ofArgument a).inColumn p ≠ .null ↔ ¬ p.TakesNaN j := by
  have hnull : a ≠ .null := Argument.ne_null_of_ofJson h hp
  have hkept : (Value.ofArgument a).inColumn p = .null ↔ Value.ofArgument a = .null :=
    ⟨fun hin => by_contra fun hne => Value.inColumn_ne_null hne hin, fun heq => by simp [heq]⟩
  rw [not_iff_not, hkept, ofArgument_eq_null, or_iff_right hnull]
  constructor
  · rintro ⟨x, rfl, hx⟩
    cases Argument.takesFor_of_ofJson h with
    | scalar hrepeated hscalar =>
      generalize hs : p.scalar = s at hscalar
      cases hscalar with
      | float64 hfloat => exact ⟨hrepeated, hs, x, hfloat, hx⟩
  · rintro ⟨hrepeated, hs, x, hfloat, hx⟩
    cases Argument.takesFor_of_ofJson h with
    | null => exact absurd rfl hnull
    | list htrue => cases hrepeated.symm.trans htrue
    | scalar _ hscalar =>
      rw [hs] at hscalar
      cases hscalar with
      | float64 htaken =>
        cases hfloat.symm.trans htaken
        exact ⟨x, rfl, hx⟩

/-- A value that a point takes passes the constraints on its column, unless it is no number and the
column forbids null. -/
theorem allows_iff (h : Argument.ofJson p j = .ok a) (hread : j.Readable) (hrule : rule ∈ p.constraints) :
    rule.Allows ((Value.ofArgument a).inColumn p) ↔ ¬ (rule = .notNull ∧ p.TakesNaN j) := by
  cases rule with
  | notNull =>
    rw [Constraint.Allows, kept_ne_null_iff h (notNull_mem.1 hrule)]
    simp
  | list =>
    refine iff_of_true ?_ (by simp)
    have hp := list_mem.1 hrule
    cases Argument.takesFor_of_ofJson h with
    | null => simp [Value.ofArgument, Constraint.Allows]
    | @list items _ hitems =>
      have hlist : Constraint.IsList (Json.arr items).compact :=
        isList_compact hread fun item hitem => plain_of_takes (hitems item hitem).choose_spec
      simpa [Value.ofArgument, Value.inColumn, hp, Constraint.Allows] using hlist
    | scalar hfalse => cases hp.symm.trans hfalse
  | notNegative =>
    refine iff_of_true ?_ (by simp)
    obtain ⟨hp, hs⟩ := notNegative_mem.1 hrule
    cases Argument.takesFor_of_ofJson h with
    | null => simp [Value.ofArgument, Constraint.Allows]
    | list htrue => cases hp.symm.trans htrue
    | scalar _ hscalar =>
      rw [hs] at hscalar
      cases hscalar with
      | uint64 => simp [Value.ofArgument, Value.inColumn, hp, hs, Constraint.Allows]

theorem allows_null (hrule : rule ∈ p.constraints) (hp : p.nullable = true) : rule.Allows .null := by
  cases rule with
  | notNull => cases hp.symm.trans (notNull_mem.1 hrule)
  | list | notNegative => trivial

end Sql

/-! ## Rows -/

namespace Sql.Collection

open Database (tableRow keptAs)

variable {c : Collection} {results : List PipeResult} {columns : List CollectionColumn}
  {found : List (CollectionColumn × Argument)} {stmt : Statement}

/-- A report has no number for a column that asks for one. -/
def LacksNumber (results : List PipeResult) (col : CollectionColumn) : Prop :=
  ∃ j, reported? results col.pipe = some j ∧ col.point.TakesNaN j

/-- The statement inserts the cells: they stand in distinct columns of the table, each of them with its
argument and a placeholder. -/
structure Inserts (c : Collection) (stmt : Statement) (cells : List (CollectionColumn × Argument)) :
    Prop where
  sql : stmt.sql = "INSERT INTO " ++ c.tableName ++ " (" ++
    String.intercalate ", " (cells.map fun cell => quoteName cell.1.name) ++ ") VALUES (" ++
    String.intercalate ", " (List.replicate stmt.arguments.length "?") ++ ") ON CONFLICT DO NOTHING"
  arguments : stmt.arguments = cells.map (·.2)
  some_cell : cells ≠ []
  columns : (cells.map (·.1)).Sublist c.columns
  distinct : (cells.map (·.1.name)).Nodup

theorem insertRow_eq_ok : c.insertRow results = .ok (some stmt) ↔
    ∃ found, cells results c.columns = .ok (some found) ∧ found ≠ [] ∧ stmt = c.insertStatement found := by
  simp only [insertRow, row?, Result.bind_eq_ok, Result.pure_eq_ok]
  constructor
  · rintro ⟨_, ⟨found?, hfound, rfl⟩, h⟩
    obtain ⟨found, hsome, rfl⟩ := Option.map_eq_some_iff.1 h
    obtain ⟨rfl, hne⟩ := Option.filter_eq_some_iff.1 hsome
    exact ⟨found, hfound, by simpa using hne, rfl⟩
  · rintro ⟨found, hfound, hne, rfl⟩
    refine ⟨some found, ⟨some found, hfound, ?_⟩, rfl⟩
    exact Option.filter_eq_some_iff.2 ⟨rfl, by simpa using hne⟩

theorem sublist_of_cells (h : cells results columns = .ok (some found)) :
    (found.map (·.1)).Sublist columns := by
  induction columns generalizing found with
  | nil =>
    cases h
    exact List.Sublist.refl _
  | cons col rest ih =>
    rw [cells] at h
    split at h
    · obtain ⟨a, -, h⟩ := Result.bind_eq_ok.1 h
      obtain ⟨more?, hmore, h⟩ := Result.bind_eq_ok.1 h
      obtain ⟨more, rfl, rfl⟩ := Option.map_eq_some_iff.1 (Result.pure_eq_ok.1 h)
      exact (ih hmore).cons_cons col
    · split at h
      · exact (ih h).cons col
      · cases h

theorem nullable_of_cells (h : cells results columns = .ok (some found)) {col : CollectionColumn}
    (hcol : col ∈ columns) (hnone : reported? results col.pipe = none) : col.point.nullable = true := by
  induction columns generalizing found with
  | nil => cases hcol
  | cons other rest ih =>
    rw [cells] at h
    split at h
    case h_1 j hj =>
      obtain ⟨a, -, h⟩ := Result.bind_eq_ok.1 h
      obtain ⟨more?, hmore, h⟩ := Result.bind_eq_ok.1 h
      obtain ⟨more, rfl, -⟩ := Option.map_eq_some_iff.1 (Result.pure_eq_ok.1 h)
      obtain rfl | hcol := List.mem_cons.1 hcol
      · cases hnone.symm.trans hj
      · exact ih hmore hcol
    case h_2 =>
      split at h
      case isTrue hnullable =>
        obtain rfl | hcol := List.mem_cons.1 hcol
        · exact hnullable
        · exact ih h hcol
      case isFalse => cases h

theorem inserts_of_cells (hnames : (c.columns.map (·.name)).Nodup)
    (h : cells results c.columns = .ok (some found)) (hne : found ≠ []) :
    c.Inserts (c.insertStatement found) found where
  sql := by
    have hplaces : (found.map fun _ => "?") = List.replicate (found.map (·.2)).length "?" := by
      rw [List.map_const', List.length_map]
    unfold insertStatement
    rw [hplaces]
  arguments := rfl
  some_cell := hne
  columns := sublist_of_cells h
  distinct := by
    have hsub := (sublist_of_cells h).map (·.name)
    rw [List.map_map] at hsub
    exact hnames.sublist hsub

/-- A row of a report breaks no constraint but one against null, where a float is no number. -/
theorem allows_of_cells (hnames : (c.columns.map (·.name)).Nodup)
    (hread : ∀ r ∈ results, r.result.Readable) (h : cells results c.columns = .ok (some found))
    {cell : CollectionColumn × Value} (hcell : cell ∈ c.columns.zip (tableRow c.columns found))
    {rule : Constraint} (hrule : rule ∈ cell.1.point.constraints) :
    rule.Allows cell.2 ↔ ¬ (rule = .notNull ∧ LacksNumber results cell.1) := by
  have hcol : cell.1 ∈ c.columns := (List.of_mem_zip hcell).1
  rw [Database.Collection.value_of_tableRow h hnames hcell hcol, LacksNumber]
  cases hj : reported? results cell.1.pipe with
  | none =>
    refine iff_of_true ?_ (by simp)
    simpa [keptAs] using allows_null hrule (nullable_of_cells h hcol hj)
  | some j =>
    obtain ⟨hcells, hfound⟩ := Database.Collection.cells_eq_ok h
    obtain ⟨a, ha⟩ := hfound cell.1 hcol j hj
    obtain ⟨-, i, hi, ha⟩ := hcells _ ha
    cases hj.symm.trans hi
    have hreadable : j.Readable := by
      obtain ⟨r, hr, rfl⟩ := Option.map_eq_some_iff.1 hj
      exact hread r (List.mem_reverse.1 (List.mem_of_find?_eq_some hr))
    rw [keptAs, Option.map_some, Option.getD_some, Database.storedAs_of_ok ha,
      allows_iff ha hreadable hrule]
    simp

theorem names_of_ofView {u : Uuid} {v : View} {digest : String} {points : Points}
    (h : ofView u v digest points = .ok c) : c.columns.map (·.name) = v.columns.map Column.name := by
  obtain ⟨columns, hcolumns, h⟩ := Result.bind_eq_ok.1 h
  cases Result.pure_eq_ok.1 h
  refine Result.map_eq_of_forall₂ (Result.mapM_eq_ok.1 hcolumns).flip fun col d hcol => ?_
  unfold columnOf at hcol
  split at hcol
  · cases hcol
    rfl
  · cases hcol

/-- A column as the statement that makes the table defines it. -/
def definition (col : CollectionColumn) : String :=
  quoteName col.name ++ " " ++ columnType col.point ++
    String.join (col.point.constraints.map (Constraint.text (quoteName col.name)))

theorem createTable_eq (hne : c.columns ≠ []) : c.createTable =
    "CREATE TABLE IF NOT EXISTS " ++ c.tableName ++ " (" ++
      String.intercalate ", " (c.columns.map definition ++
        ["UNIQUE (" ++ String.intercalate ", " (c.columns.map (quoteName ·.name)) ++ ")"]) ++ ");" := by
  have hdefinitions : (c.columns.map fun col => columnDefinition col.name col.point) =
      c.columns.map definition := List.map_congr_left fun col _ => columnDefinition_eq col.name col.point
  have hsome : c.columns.isEmpty = false := by simpa using hne
  unfold createTable
  simp only [hdefinitions, hsome, Bool.false_eq_true, ↓reduceIte]

/-- What a report inserts into the table of a valid view breaks none of the constraints that the table is
made with, except that a float which is no number is null, where the column forbids null. Otherwise the
row is added unless an equal one is there. -/
theorem insertion_breaks_only_not_null {u : Uuid} {v : View} {digest : String} {points : Points}
    {c : Collection} {results : List PipeResult} {stmt : Statement} (hview : v.validate = .ok ())
    (hc : ofView u v digest points = .ok c) (hread : ∀ r ∈ results, r.result.Readable)
    (h : c.insertRow results = .ok (some stmt)) :
    c.createTable = "CREATE TABLE IF NOT EXISTS " ++ c.tableName ++ " (" ++
      String.intercalate ", " (c.columns.map definition ++
        ["UNIQUE (" ++ String.intercalate ", " (c.columns.map (quoteName ·.name)) ++ ")"]) ++ ");" ∧
    ∃ cells, c.Inserts stmt cells ∧
      (∀ cell ∈ c.columns.zip (tableRow c.columns cells), ∀ rule ∈ cell.1.point.constraints,
        (rule.Allows cell.2 ↔ ¬ (rule = .notNull ∧ LacksNumber results cell.1))) ∧
      ((∃ col ∈ c.columns, col.point.nullable = false ∧ LacksNumber results col) ∨
        ∀ (table : String) (rows : List (List Value)),
          Database.insertRow table c.columns rows (tableRow c.columns cells) =
            .ok (if rows.any (Database.conflicts (tableRow c.columns cells)) then (rows, 0)
              else (rows ++ [tableRow c.columns cells], 1))) := by
  have hnames : (c.columns.map (·.name)).Nodup := names_of_ofView hc ▸ View.names_of_validate hview
  obtain ⟨found, hfound, hne, rfl⟩ := insertRow_eq_ok.1 h
  have hinserts := inserts_of_cells hnames hfound hne
  have hallows : ∀ cell ∈ c.columns.zip (tableRow c.columns found), ∀ rule ∈ cell.1.point.constraints,
      (rule.Allows cell.2 ↔ ¬ (rule = .notNull ∧ LacksNumber results cell.1)) :=
    fun cell hcell rule hrule => allows_of_cells hnames hread hfound hcell hrule
  have hcolumns : c.columns ≠ [] := fun hnil => by
    have hsub := hinserts.columns
    rw [hnil, List.sublist_nil, List.map_eq_nil_iff] at hsub
    exact hne hsub
  refine ⟨createTable_eq hcolumns, found, hinserts, hallows, or_iff_not_imp_left.2 fun hnumbers table rows => ?_⟩
  have hlacking : Database.lacking? c.columns (tableRow c.columns found) = none := by
    rw [Database.lacking?, Option.map_eq_none_iff, List.find?_eq_none]
    intro cell hcell hnull
    obtain ⟨hnullable, hnull⟩ : cell.1.point.nullable = false ∧ cell.2 = .null := by simpa using hnull
    have hrule : Constraint.notNull ∈ cell.1.point.constraints := notNull_mem.2 hnullable
    refine (hallows cell hcell _ hrule).2 ?_ hnull
    exact fun hlacks => hnumbers ⟨cell.1, (List.of_mem_zip hcell).1, hnullable, hlacks.2⟩
  rw [Database.insertRow, hlacking]

/-- A view of a price, and a report that has no number for it. -/
def price : Key := .exact "price" "a9b484ede4a501e14c408fa49113858be78f9734"

def prices : View := { columns := [{ pipe := price }] }

def pricePoints : Points := Std.ExtTreeMap.ofList [(price, ({ scalar := .float64 } : Point))]

def priceColumn : CollectionColumn := ⟨"price", price, { scalar := .float64 }⟩

def noNumber : List PipeResult := [⟨price, .str "nan"⟩]

/-- The report is inserted as a null, which the table of the view forbids. -/
theorem price_without_number_refused :
    ∃ c stmt cells, prices.validate = .ok () ∧
      ofView ⟨1⟩ prices "" pricePoints = .ok c ∧
      (∀ r ∈ noNumber, r.result.Readable) ∧ c.insertRow noNumber = .ok (some stmt) ∧
      c.Inserts stmt cells ∧
      ∃ cell ∈ c.columns.zip (tableRow c.columns cells),
        .notNull ∈ cell.1.point.constraints ∧ ¬ Constraint.notNull.Allows cell.2 := by
  have hrun : prices.validate.toOption = some () ∧
      (ofView ⟨1⟩ prices "" pricePoints).toOption.any (fun c =>
        decide (c.columns = [priceColumn]) &&
          (c.insertRow noNumber).toOption.any (·.isSome)) = true ∧
      (Argument.float? (.str "nan")).any (·.isNaN) = true := by decide +kernel
  obtain ⟨hview, hrun, hnan⟩ := hrun
  obtain ⟨c, hc, hrun⟩ := Result.exists_ok_of_any hrun
  obtain ⟨hcolumns, hrun⟩ := Bool.and_eq_true_iff.1 hrun
  obtain ⟨stmt?, hstmt, hsome⟩ := Result.exists_ok_of_any hrun
  obtain ⟨stmt, rfl⟩ := Option.isSome_iff_exists.1 hsome
  have hread : ∀ r ∈ noNumber, r.result.Readable := List.forall_mem_singleton.2 trivial
  obtain ⟨-, cells, hinserts, hallows, -⟩ :=
    insertion_breaks_only_not_null (Result.toOption_eq_some.1 hview) hc hread hstmt
  obtain ⟨x, hx, hnumber⟩ := (Option.any_eq_true _ _).1 hnan
  have hlacks : LacksNumber noNumber priceColumn := ⟨.str "nan", rfl, rfl, rfl, x, hx, hnumber⟩
  have hrule : Constraint.notNull ∈ priceColumn.point.constraints := notNull_mem.2 rfl
  refine ⟨c, stmt, cells, Result.toOption_eq_some.1 hview, hc, hread, hstmt, hinserts, ?_⟩
  rw [of_decide_eq_true hcolumns] at hallows ⊢
  obtain ⟨kept, hkept⟩ : ∃ kept, tableRow [priceColumn] cells = [kept] := ⟨_, rfl⟩
  rw [hkept] at hallows ⊢
  refine ⟨(priceColumn, kept), List.mem_cons_self, hrule, fun hallowed => ?_⟩
  exact (hallows _ List.mem_cons_self _ hrule).1 hallowed ⟨rfl, hlacks⟩

end Sql.Collection
end PagePipes
