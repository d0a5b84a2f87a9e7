import PagePipes.Proofs.Database.Matching

set_option autoImplicit false

/-!
# What a report leaves behind

A report may name one planned pipe several times, by its own key or by that of its exchange. Its
event keeps the first value for the pipe, the rows of the collections the last. So a row agrees with
the event exactly where the first and the last value are stored alike.
-/
namespace PagePipes

namespace Database

/-- What a report says of the planned pipes, in its order: the key of each and the value. -/
def reports (targets : List Target) (results : List PipeResult) : List (Key × Json) :=
  results.flatMap fun r => (targets.filter (·.answers r.pipe)).map fun t => (t.planned.name, r.result)

/-- The value of a point as an event stores it. -/
def storedAs (p : Point) (j : Json) : Sql.Value :=
  match Sql.Argument.ofJson p j with
  | .ok a => .ofArgument a
  | .error _ => .null

theorem storedAs_of_ok {p : Point} {j : Json} {a : Sql.Argument} (h : Sql.Argument.ofJson p j = .ok a) :
    storedAs p j = .ofArgument a := by rw [storedAs, h]

/-- The value of a point as a column for it keeps it; null when there is none. -/
def keptAs (p : Point) (j? : Option Json) : Sql.Value := ((j?.map (storedAs p)).getD .null).inColumn p

def pointOf (db : Database) (k : Key) : Point :=
  match db.pipe k with
  | .ok p => p.point
  | .error _ => {}

theorem pointOf_eq {db : Database} {k : Key} {p : Pipe} (h : db.pipe k = .ok p) :
    db.pointOf k = p.point := by rw [pointOf, h]

/-! ## The values of an event -/

namespace Recorded

variable {point : Key → Point} {reports : List (Key × Json)} {r s : Recorded} {targets : List Target}

/-- Of the values for one pipe the first is stored and the last is reported on. -/
structure Keeps (point : Key → Point) (reports : List (Key × Json)) (r : Recorded) : Prop where
  first : ∀ k, r.values.lookup k = (reports.lookup k).map (storedAs (point k))
  last : ∀ k, r.reported[k]? = reports.reverse.lookup k
  /-- Every value is one of its point. -/
  accepted : ∀ e ∈ reports, ∃ a, Sql.Argument.ofJson (point e.1) e.2 = .ok a
  keys : (r.values.map (·.1)).Nodup
  /-- Where no pipe has two values, all of them are stored. -/
  all : (reports.map (·.1)).Nodup → r.values = reports.map fun e => (e.1, storedAs (point e.1) e.2)

theorem Keeps.add {t : Target} {j : Json} (h : Keeps point reports r)
    (ht : t.point = point t.planned.name) (hr : r.add t j = .ok s) :
    Keeps point (reports ++ [(t.planned.name, j)]) s := by
  obtain ⟨a, ha, hr⟩ := Result.bind_eq_ok.1 hr
  have hvalue : Sql.Value.ofArgument a = storedAs (point t.planned.name) j := by
    rw [← ht, storedAs_of_ok ha]
  cases Result.pure_eq_ok.1 hr
  constructor
  case first =>
    intro k
    change List.lookup k (if _ then _ else _) = _
    rw [Lookup.lookup_addNew, List.lookup_append, List.lookup_append, h.first, Option.map_or]
    by_cases hk : k = t.planned.name
    · subst hk
      simp [hvalue]
    · simp [List.lookup_cons, beq_false_of_ne hk]
  case last =>
    intro k
    rw [List.reverse_append, List.reverse_singleton, List.singleton_append, List.lookup_cons,
      Std.ExtTreeMap.getElem?_insert, ← h.last]
    by_cases hk : k = t.planned.name
    · subst hk
      simp
    · have hne : compare t.planned.name k ≠ .eq := fun heq =>
        hk (Std.LawfulEqOrd.eq_of_compare heq).symm
      rw [if_neg hne, beq_false_of_ne hk]
  case accepted =>
    exact List.forall_mem_append.2 ⟨h.accepted, List.forall_mem_singleton.2 ⟨a, ht ▸ ha⟩⟩
  case keys =>
    dsimp only
    split
    · exact h.keys
    · next hnew =>
      rw [List.map_append, List.map_singleton, List.nodup_append]
      refine ⟨h.keys, List.nodup_singleton _, fun k hk l hl => ?_⟩
      rintro rfl
      obtain ⟨e, he, rfl⟩ := List.mem_map.1 hk
      exact hnew (List.any_eq_true.2 ⟨e, he, by simpa using List.mem_singleton.1 hl⟩)
  case all =>
    intro hnodup
    rw [List.map_append, List.map_singleton, List.nodup_append] at hnodup
    obtain ⟨hbefore, -, hnew⟩ := hnodup
    have hvalues := h.all hbefore
    have hfresh : r.values.any (·.1 == t.planned.name) = false := by
      rw [hvalues, List.any_map, List.any_eq_false]
      intro e he
      simpa using hnew e.1 (List.mem_map_of_mem he) t.planned.name (by simp)
    simp only [hfresh, Bool.false_eq_true, ↓reduceIte]
    rw [hvalues, hvalue, List.map_append, List.map_singleton]

theorem Keeps.addAll {ts : List Target} {j : Json} (h : Keeps point reports r)
    (hts : ∀ t ∈ ts, t.point = point t.planned.name) (hr : ts.foldlM (fun r t => r.add t j) r = .ok s) :
    Keeps point (reports ++ ts.map fun t => (t.planned.name, j)) s := by
  induction ts using List.reverseRecOn generalizing s with
  | nil => simpa using Result.pure_eq_ok.1 hr ▸ h
  | append_singleton ts t ih =>
    obtain ⟨d, hd, hs⟩ := Result.foldlM_concat_eq_ok.1 hr
    have hkeeps := (ih (fun t ht => hts t (by simp [ht])) hd).add (hts t (by simp)) hs
    simpa [List.append_assoc] using hkeeps

theorem Keeps.addResult {plan : Uuid} {p : PipeResult} (h : Keeps point reports r)
    (hts : ∀ t ∈ targets, t.point = point t.planned.name) (hr : r.addResult plan targets p = .ok s) :
    Keeps point (reports ++ Database.reports targets [p]) s := by
  have hnamed : ∀ t ∈ targets.filter (·.answers p.pipe), t.point = point t.planned.name :=
    fun t ht => hts t (List.mem_filter.1 ht).1
  unfold Recorded.addResult at hr
  split at hr
  · simp at hr
  · rename_i _ hall
    simpa [Database.reports] using h.addAll hnamed hr

theorem keeps_of_addResults {plan : Uuid} {results : List PipeResult}
    (hts : ∀ t ∈ targets, t.point = point t.planned.name)
    (hr : results.foldlM (Recorded.addResult plan targets) {} = .ok r) :
    Keeps point (Database.reports targets results) r := by
  induction results using List.reverseRecOn generalizing r with
  | nil =>
    cases Result.pure_eq_ok.1 hr
    exact ⟨fun k => rfl, fun k => by simp [Database.reports], by simp [Database.reports],
      List.nodup_nil, fun _ => rfl⟩
  | append_singleton results p ih =>
    obtain ⟨d, hd, hs⟩ := Result.foldlM_concat_eq_ok.1 hr
    simpa [Database.reports] using (ih hd).addResult hts hs

/-- The reported values are handed to the collections as results without repeated keys. -/
theorem reported?_eq (m : Key.Map Json) (k : Key) :
    Sql.Collection.reported? (m.toList.map fun (k, j) => PipeResult.mk k j) k = m[k]? := by
  have hkeys : ((m.toList.map fun (k, j) => PipeResult.mk k j).reverse.map (·.pipe)).Nodup := by
    rw [List.map_reverse, List.nodup_reverse, List.map_map]
    have := Std.ExtTreeMap.nodup_keys (t := m)
    rwa [← Std.ExtTreeMap.map_fst_toList_eq_keys] at this
  unfold Sql.Collection.reported?
  cases hm : m[k]? with
  | some j =>
    have hmem : PipeResult.mk k j ∈ (m.toList.map fun (k, j) => PipeResult.mk k j).reverse :=
      List.mem_reverse.2 (List.mem_map.2 ⟨(k, j), Std.ExtTreeMap.mem_toList_iff_getElem?_eq_some.2 hm, rfl⟩)
    exact congrArg (Option.map (·.result)) (Lookup.find?_key hkeys hmem)
  | none =>
    rw [Option.map_eq_none_iff, List.find?_eq_none]
    intro r hr hkey
    obtain ⟨⟨l, j⟩, hl, rfl⟩ := List.mem_map.1 (List.mem_reverse.1 hr)
    obtain rfl : l = k := by simpa using hkey
    cases hm.symm.trans (Std.ExtTreeMap.mem_toList_iff_getElem?_eq_some.1 hl)

end Recorded

/-! ## The rows of a collection -/

namespace Collection

open Sql (CollectionColumn)
open Sql.Collection

variable {results : List PipeResult} {columns : List CollectionColumn}
  {found : List (CollectionColumn × Sql.Argument)}

theorem cells_eq_ok (h : cells results columns = .ok (some found)) :
    (∀ cell ∈ found, cell.1 ∈ columns ∧ ∃ j, reported? results cell.1.pipe = some j ∧
      Sql.Argument.ofJson cell.1.point j = .ok cell.2) ∧
    ∀ col ∈ columns, ∀ j, reported? results col.pipe = some j → ∃ a, (col, a) ∈ found := by
  induction columns generalizing found with
  | nil =>
    cases h
    simp
  | cons col rest ih =>
    rw [cells] at h
    split at h
    case h_1 j hj =>
      obtain ⟨a, ha, h⟩ := Result.bind_eq_ok.1 h
      obtain ⟨more?, hmore, h⟩ := Result.bind_eq_ok.1 h
      obtain ⟨more, rfl, rfl⟩ := Option.map_eq_some_iff.1 (Result.pure_eq_ok.1 h)
      obtain ⟨hcells, hfound⟩ := ih hmore
      refine ⟨List.forall_mem_cons.2 ⟨⟨by simp, j, hj, ha⟩, fun cell hcell => ?_⟩,
        List.forall_mem_cons.2 ⟨fun _ _ => ⟨a, by simp⟩, fun d hd i hi => ?_⟩⟩
      · exact ⟨List.mem_cons_of_mem _ (hcells cell hcell).1, (hcells cell hcell).2⟩
      · obtain ⟨b, hb⟩ := hfound d hd i hi
        exact ⟨b, List.mem_cons_of_mem _ hb⟩
    case h_2 hnone =>
      split at h
      case isFalse => simp at h
      case isTrue =>
        obtain ⟨hcells, hfound⟩ := ih h
        refine ⟨fun cell hcell => ?_, List.forall_mem_cons.2 ⟨fun j hj => ?_, hfound⟩⟩
        · exact ⟨List.mem_cons_of_mem _ (hcells cell hcell).1, (hcells cell hcell).2⟩
        · cases hnone.symm.trans hj

theorem value_of_tableRow {all : List CollectionColumn} (h : cells results columns = .ok (some found))
    (hnames : (columns.map (·.name)).Nodup) {cell : CollectionColumn × Sql.Value}
    (hcell : cell ∈ all.zip (tableRow all found)) (hcol : cell.1 ∈ columns) :
    cell.2 = keptAs cell.1.point (reported? results cell.1.pipe) := by
  obtain ⟨hcells, hfound⟩ := cells_eq_ok h
  rw [tableRow, ← List.map_prod_left_eq_zip] at hcell
  obtain ⟨col, -, rfl⟩ := List.mem_map.1 hcell
  cases hfind : found.find? (·.1.name == col.name) with
  | some other =>
    have hmem := List.mem_of_find?_eq_some hfind
    have hname : other.1.name = col.name := by simpa using List.find?_some hfind
    have hsame : other.1 = col := List.inj_on_of_nodup_map hnames (hcells _ hmem).1 hcol hname
    obtain ⟨-, j, hj, ha⟩ := hcells _ hmem
    rw [hsame] at hj ha
    simp [hj, keptAs, storedAs_of_ok ha]
  | none =>
    cases hj : reported? results col.pipe with
    | none => simp [keptAs]
    | some j =>
      obtain ⟨a, ha⟩ := hfound col hcol j hj
      simpa using List.find?_eq_none.1 hfind _ ha

end Collection

/-- A table got more rows, each of a kind; anything else in the schema is as before. -/
inductive Filled (P : String → List Sql.CollectionColumn → List Sql.Value → Prop) :
    SchemaObject → SchemaObject → Prop
  | same (o : SchemaObject) : Filled P o o
  | grown (name columns rows added) : (∀ row ∈ added, P name columns row) →
      Filled P (.table name columns rows) (.table name columns (rows ++ added))

section Filled

variable {P : String → List Sql.CollectionColumn → List Sql.Value → Prop}

theorem Filled.trans {o o' o'' : SchemaObject} (h : Filled P o o') (h' : Filled P o' o'') :
    Filled P o o'' := by
  cases h with
  | same => exact h'
  | grown name columns rows added hadded =>
    cases h' with
    | same => exact .grown _ _ _ _ hadded
    | grown _ _ _ more hmore =>
      rw [List.append_assoc]
      exact .grown _ _ _ _ fun row hrow => (List.mem_append.1 hrow).elim (hadded row) (hmore row)

theorem filled_refl (objects : List SchemaObject) : List.Forall₂ (Filled P) objects objects :=
  List.forall₂_same.2 fun o _ => .same o

theorem filled_trans {objects next last : List SchemaObject} (h : List.Forall₂ (Filled P) objects next)
    (h' : List.Forall₂ (Filled P) next last) : List.Forall₂ (Filled P) objects last := by
  induction h generalizing last with
  | nil => exact h'
  | cons ho _ ih =>
    cases h' with
    | cons ho' hrest => exact .cons (ho.trans ho') (ih hrest)

theorem filled_insertInto {table : String} {cells : List (Sql.CollectionColumn × Sql.Argument)}
    {objects next : List SchemaObject} {n : Nat}
    (hrow : ∀ columns, P table columns (tableRow columns cells))
    (h : insertInto table cells objects = .ok (next, n)) : List.Forall₂ (Filled P) objects next := by
  induction objects generalizing next n with
  | nil => cases h
  | cons o rest ih =>
    cases o with
    | table name columns rows =>
      rw [insertInto] at h
      split at h
      case isTrue hname =>
        obtain ⟨⟨grown, m⟩, hgrown, h⟩ := Result.bind_eq_ok.1 h
        cases Result.pure_eq_ok.1 h
        refine .cons ?_ (filled_refl rest)
        unfold insertRow at hgrown
        split at hgrown
        · cases hgrown
        · split at hgrown
          · cases hgrown
            exact .same _
          · cases hgrown
            exact .grown _ _ _ _ (List.forall_mem_singleton.2 (hname ▸ hrow columns))
      case isFalse =>
        obtain ⟨⟨more, m⟩, hmore, h⟩ := Result.bind_eq_ok.1 h
        cases Result.pure_eq_ok.1 h
        exact .cons (.same _) (ih hmore)
    | view _ _ | aliasView _ _ =>
      obtain ⟨⟨more, m⟩, hmore, h⟩ := Result.bind_eq_ok.1 h
      cases Result.pure_eq_ok.1 h
      exact .cons (.same _) (ih hmore)

theorem filled_fill {results : List PipeResult} {collections : List Sql.Collection}
    {s t : List SchemaObject × Nat}
    (hrow : ∀ c ∈ collections, ∀ cells columns, c.row? results = .ok (some cells) →
      P c.tableName columns (tableRow columns cells))
    (h : collections.foldlM (fill results) s = .ok t) : List.Forall₂ (Filled P) s.1 t.1 := by
  refine Result.foldlM_preserves (fun t => List.Forall₂ (Filled P) s.1 t.1) (filled_refl _) ?_ h
  intro t c t' hc ht hfill
  unfold fill at hfill
  split at hfill
  · cases Result.pure_eq_ok.1 hfill
    exact ht
  · obtain ⟨cells?, hcells, hfill⟩ := Result.bind_eq_ok.1 hfill
    split at hfill
    · cases Result.pure_eq_ok.1 hfill
      exact ht
    · obtain ⟨⟨objects, n⟩, hobjects, hfill⟩ := Result.bind_eq_ok.1 hfill
      cases Result.pure_eq_ok.1 hfill
      exact filled_trans ht (filled_insertInto (fun columns => hrow c hc _ columns hcells) hobjects)

end Filled

/-! ## Reports on stored plans -/

variable {db next : Database}

theorem pointOf_of_points {v : View} {points : Sql.Points} {k : Key} {p : Point}
    (h : db.points v = .ok points) (hp : points[k]? = some p) : p = db.pointOf k := by
  refine Result.foldlM_preserves
    (fun points : Sql.Points => ∀ (k : Key) p, points[k]? = some p → p = db.pointOf k) ?_ ?_ h k p hp
  · intro k p hp
    simp at hp
  · intro points c points' _ hpoints hstep k p hp
    obtain ⟨stored, hstored, hstep⟩ := Result.bind_eq_ok.1 hstep
    cases Result.pure_eq_ok.1 hstep
    rw [Std.ExtTreeMap.getElem?_insert] at hp
    split at hp
    case isTrue heq =>
      cases Std.LawfulEqOrd.eq_of_compare heq
      rw [pointOf_eq hstored]
      exact (Option.some.inj hp).symm
    case isFalse => exact hpoints k p hp

theorem columns_of_ofView {u : Uuid} {v : View} {digest : String} {points : Sql.Points}
    {c : Sql.Collection} (hpoints : db.points v = .ok points)
    (h : Sql.Collection.ofView u v digest points = .ok c) :
    List.Forall₂ (fun (d : Column) (col : Sql.CollectionColumn) =>
      col.name = d.name ∧ col.pipe = d.pipe ∧ col.point = db.pointOf d.pipe) v.columns c.columns := by
  obtain ⟨columns, hcolumns, h⟩ := Result.bind_eq_ok.1 h
  cases Result.pure_eq_ok.1 h
  refine (Result.mapM_eq_ok.1 hcolumns).imp fun d col hcol => ?_
  unfold Sql.Collection.columnOf at hcol
  split at hcol
  · next p hp =>
    cases hcol
    exact ⟨rfl, rfl, pointOf_of_points hpoints hp⟩
  · cases hcol

/-- The columns of a collection have names of their own and the points of the stored pipes. -/
theorem Sound.collections (hs : db.Sound) {all : List Sql.Collection} (h : db.collections = .ok all)
    {c : Sql.Collection} (hc : c ∈ all) :
    (c.columns.map (·.name)).Nodup ∧ ∀ col ∈ c.columns, col.point = db.pointOf col.pipe := by
  obtain ⟨row, hrow, hmade⟩ := Result.exists_of_forall₂ (Result.mapM_eq_ok.1 h).flip hc
  obtain ⟨v, hv, hmade⟩ := Result.bind_eq_ok.1 hmade
  obtain ⟨points, hpoints, hmade⟩ := Result.bind_eq_ok.1 hmade
  have heach := columns_of_ofView hpoints hmade
  constructor
  · obtain ⟨w, hreads, hnames, -⟩ := hs.views.each row hrow
    cases hv.symm.trans hreads
    have hsame : c.columns.map (·.name) = v.columns.map Column.name :=
      Result.map_eq_of_forall₂ heach.flip fun _ _ h => h.1
    exact hsame ▸ hnames
  · intro col hcol
    obtain ⟨d, -, -, hpipe, hpoint⟩ := Result.exists_of_forall₂ heach.flip hcol
    rw [hpoint, hpipe]

theorem target_point {p : PlannedPipe} {t : Target} (h : db.target p = .ok t) :
    t.point = db.pointOf t.planned.name := by
  obtain ⟨stored, hstored, h⟩ := Result.bind_eq_ok.1 h
  cases Result.pure_eq_ok.1 h
  exact (pointOf_eq hstored).symm

/-- A row has the value that its event has for the pipe of a column, or null where it has none. -/
def Agrees (e : Event) (col : Sql.CollectionColumn) (v : Sql.Value) : Prop :=
  v = ((e.results.lookup col.pipe).getD .null).inColumn col.point

/-- At a column an event has the first value reported for its pipe, and a row the last. So the two
agree where the first and the last are kept alike. -/
structure Recounts (reports : List (Key × Json)) (e : Event) (col : Sql.CollectionColumn)
    (v : Sql.Value) : Prop where
  event : e.results.lookup col.pipe = (reports.lookup col.pipe).map (storedAs col.point)
  row : v = keptAs col.point (reports.reverse.lookup col.pipe)
  agrees : Agrees e col v ↔
    keptAs col.point (reports.lookup col.pipe) = keptAs col.point (reports.reverse.lookup col.pipe)

/-- A report leaves one event behind, and rows in the tables of collections. -/
def Leaves (db : Database) (report : Report) (next : Database) : Prop :=
  ∃ plan targets collections e, db.planRow? report.uuid = some plan ∧
    plan.pipes.mapM db.target = .ok targets ∧ db.collections = .ok collections ∧
    next.events = db.events ++ [e] ∧
    List.Forall₂ (Filled fun table columns row => row.length = columns.length ∧
      ∃ c ∈ collections, c.tableName = table ∧ ∀ cell ∈ columns.zip row, cell.1 ∈ c.columns →
        Recounts (reports targets report.results) e cell.1 cell.2) db.objects next.objects

/-- A report that succeeds leaves an event with the first value for each pipe behind, and rows with
the last. -/
theorem rows_hold_last_reports (cs : List Change) (hread : ∀ c ∈ cs, c.AsRead) {time : String}
    {report : Report} {receipt : Receipt}
    (h : (ofChanges cs).exchange time report = .ok (next, receipt)) :
    (ofChanges cs).Leaves report next := by
  have hs := sound_ofChanges hread
  obtain ⟨plan, targets, recorded, all, objects, n, hplan, htargets, hrecorded, hall, hfill, -, rfl⟩ :=
    exchange_eq_ok h
  have hpoints : ∀ t ∈ targets, t.point = (ofChanges cs).pointOf t.planned.name := fun t ht => by
    obtain ⟨p, -, hp⟩ := Result.exists_of_forall₂ (Result.mapM_eq_ok.1 htargets).flip ht
    exact target_point hp
  have hkeeps := Recorded.keeps_of_addResults hpoints hrecorded
  refine ⟨plan, targets, all, _, hplan, htargets, hall, rfl, filled_fill ?_ hfill⟩
  intro c hc found columns hrow
  obtain ⟨found?, hcells, hrow⟩ := Result.bind_eq_ok.1 hrow
  obtain ⟨rfl, -⟩ := Option.filter_eq_some_iff.1 (Result.pure_eq_ok.1 hrow)
  obtain ⟨hnames, hcolumns⟩ := hs.collections hall hc
  refine ⟨by simp [tableRow], c, hc, rfl, fun cell hcell hcol => ?_⟩
  have hfirst := hkeeps.first cell.1.pipe
  have hvalue := Collection.value_of_tableRow hcells hnames hcell hcol
  rw [Recorded.reported?_eq, hkeeps.last] at hvalue
  rw [← hcolumns cell.1 hcol] at hfirst
  refine ⟨hfirst, hvalue, ?_⟩
  rw [Agrees, hvalue, hfirst]
  exact eq_comm

def titleInView : List Change :=
  [.createResource ⟨1⟩ (.ofSpec "title" (.pipe ⟨[.ofKind .document], {}⟩)),
    .createRule { predicate := { always := true }, pipes := [.bare "title"] },
    .createView ⟨2⟩ { aliasName := some "titles", columns := [{ pipe := .bare "title" }] }]

def planOfPage : Change := .trigger ⟨3⟩ ⟨"http://example.com/", false, true⟩

def plannedTitle : MatchedPipe :=
  let title : Pipe := ⟨[.ofKind .document], {}⟩
  ⟨(Resource.ofSpec "title" (.pipe title)).key, title⟩

/-- The title refers to nothing, so it is planned as from a source without references. -/
def titleAlone : PipeSource := ⟨fun _ => .ok [plannedTitle], fun _ => .ok ∅⟩

def titlePlanned : Database :=
  let title : Key := .exact "title" "37e58cb02d402fd5cdcc77f3a898346c49ea91ff"
  let document : Action := .ofKind .document
  let spec := (Pipe.mk [document] {}).toJson.compact
  let view : View := { aliasName := some "titles", columns := [{ pipe := title }] }
  let plan : Plan := ⟨[1], [2], [⟨0, document⟩, ⟨1, .exchange title .string⟩]⟩
  let columns : List Sql.CollectionColumn := [⟨"title", title, {}⟩]
  { pipes := [{ key := title, spec }]
    views := [⟨⟨2⟩, "efd312350b4d325177ae9a2f3ce4d221f7cc8a80", view.toJson.compact⟩]
    viewPipes := [(⟨2⟩, title)]
    conditions := [{ always := true }]
    links := [⟨title, { always := true }, none⟩]
    resources := [⟨"v1", title, none, [], spec, .pipe⟩]
    plans := [{ uuid := ⟨3⟩, text := plan.toJson.compact, pipes := [⟨title, title⟩] }]
    objects := [.table "collection_titles__efd312350b4d325177ae9a2f3ce4d221f7cc8a80" columns [],
      .view ⟨2⟩ columns, .aliasView "titles" ⟨2⟩] }

theorem titleInView_eq : ofChanges titleInView = { titlePlanned with plans := [] } := by decide +kernel

theorem titlePlanned_eq : ofChanges (titleInView ++ [planOfPage]) = titlePlanned := by
  have hrun : (Trigger.parseUrl "http://example.com/").toOption.any (fun url =>
      decide (({ titlePlanned with plans := [] }.matched url).toOption = some [plannedTitle]) &&
        (Trigger.outcome titleAlone url).toOption.any fun o => decide
          (({ titlePlanned with plans := [] }.storePlan ⟨3⟩ o.plan o.planned).toOption =
            some titlePlanned)) = true := by
    decide +kernel
  rw [← titleInView_eq] at hrun
  obtain ⟨url, hurl, hrun⟩ := Result.exists_ok_of_any hrun
  obtain ⟨hmatched, hrun⟩ := Bool.and_eq_true_iff.1 hrun
  obtain ⟨o, ho, hstored⟩ := Result.exists_ok_of_any hrun
  have hms := Result.toOption_eq_some.1 (of_decide_eq_true hmatched)
  have hpipe : (ofChanges titleInView).pipe plannedTitle.name = .ok plannedTitle.pipe := by
    rw [titleInView_eq]
    exact Result.toOption_eq_some.1 (by decide +kernel)
  have houtcome : Trigger.outcome (ofChanges titleInView).source url = Trigger.outcome titleAlone url := by
    refine @Trigger.outcome_congr _ titleAlone _ _ hms rfl (List.forall_mem_singleton.2 ?_)
    exact referencedPipes_of_no_references hpipe (by decide +kernel)
  have htrigger : (ofChanges titleInView).trigger ⟨3⟩ ⟨"http://example.com/", false, true⟩ =
      .ok (titlePlanned, Trigger.response ⟨"http://example.com/", false, true⟩ ⟨3⟩ o) := by
    rw [Database.trigger, hurl, Result.ok_bind, houtcome, ho, Result.ok_bind,
      Result.toOption_eq_some.1 (of_decide_eq_true hstored)]
    rfl
  rw [ofChanges_concat, Change.after, planOfPage, Change.apply, htrigger]

def twoTitles : Report :=
  { uuid := ⟨3⟩, results := [⟨plannedTitle.name, .str "first"⟩, ⟨plannedTitle.name, .str "second"⟩] }

/-- A view of the title of a page, and a report on the page. -/
def titleReported : List Change := titleInView ++ [planOfPage] ++ [.exchange "" twoTitles]

theorem asRead_planOfPage : ∀ c ∈ titleInView ++ [planOfPage], c.AsRead := by
  simp only [titleInView, List.cons_append, List.nil_append, List.mem_cons, List.not_mem_nil, or_false]
  rintro c (rfl | rfl | rfl | rfl)
  · exact List.forall_mem_singleton.2 (Action.readable_ofKind _)
  all_goals trivial

theorem asRead_titleReported : ∀ c ∈ titleReported, c.AsRead :=
  List.forall_mem_append.2 ⟨asRead_planOfPage, List.forall_mem_singleton.2 trivial⟩

/-- The event says the first title, the row of the view the second. -/
theorem two_titles_disagree :
    (∀ c ∈ titleInView ++ [planOfPage], c.AsRead) ∧
    ∃ next receipt,
      (ofChanges (titleInView ++ [planOfPage])).exchange "" twoTitles = .ok (next, receipt) ∧
      (ofChanges (titleInView ++ [planOfPage])).Leaves twoTitles next ∧
      next.events.map (·.results.map (·.2)) = [[.text "first"]] ∧
      next.objects.filterMap (fun | .table _ _ rows => some rows | _ => none) = [[[.text "second"]]] := by
  have hread : ∀ c ∈ titleInView ++ [planOfPage], c.AsRead := by
    simp only [titleInView, List.cons_append, List.nil_append, List.mem_cons, List.not_mem_nil,
      or_false]
    rintro c (rfl | rfl | rfl | rfl)
    · exact List.forall_mem_singleton.2 (Action.readable_ofKind _)
    · trivial
    · trivial
    · trivial
  have hrun : (titlePlanned.exchange "" twoTitles).toOption.any (fun a =>
      decide (a.1.events.map (·.results.map (·.2)) = [[.text "first"]] ∧
        a.1.objects.filterMap (fun | .table _ _ rows => some rows | _ => none) =
          [[[.text "second"]]])) = true := by
    decide +kernel
  rw [← titlePlanned_eq] at hrun
  obtain ⟨⟨next, receipt⟩, hnext, hvalues⟩ := Result.exists_ok_of_any hrun
  obtain ⟨hevents, hrows⟩ := of_decide_eq_true hvalues
  exact ⟨hread, next, receipt, hnext, rows_hold_last_reports _ hread hnext, hevents, hrows⟩

end Database
end PagePipes
