import PagePipes.Proofs.Database.Effects

set_option autoImplicit false

/-!
# Rows that tables absorb

A table takes a row unless it has it already; only a row with a null is taken again, as a null is not
equal to itself. So the rows without a null are all different, and a report that is made once more adds
those rows again that have a null, and no others.
-/
namespace PagePipes.Database

open Sql (CollectionColumn)

variable {rows offered : List (List Sql.Value)} {row : List Sql.Value}

/-! ## Offering rows to a table -/

/-- The rows of a table after others were offered to it, one after the other. -/
def absorb (rows offered : List (List Sql.Value)) : List (List Sql.Value) :=
  offered.foldl (fun rows row => if rows.any (conflicts row) then rows else rows ++ [row]) rows

/-- Two rows of the table are equal only if they hold a null. -/
def Distinct (rows : List (List Sql.Value)) : Prop :=
  rows.Pairwise fun row other => row = other → .null ∈ row

theorem any_conflicts_iff : rows.any (conflicts row) = true ↔ row ∈ rows ∧ .null ∉ row := by
  simp [conflicts]

theorem absorb_append (rows offered more : List (List Sql.Value)) :
    absorb rows (offered ++ more) = absorb (absorb rows offered) more :=
  List.foldl_append

theorem absorb_cons_of_conflict (h : row ∈ rows ∧ .null ∉ row) :
    absorb rows (row :: offered) = absorb rows offered := by
  rw [absorb, List.foldl_cons, if_pos (any_conflicts_iff.2 h), ← absorb]

theorem absorb_cons_of_no_conflict (h : ¬ (row ∈ rows ∧ .null ∉ row)) :
    absorb rows (row :: offered) = absorb (rows ++ [row]) offered := by
  rw [absorb, List.foldl_cons, if_neg (mt any_conflicts_iff.1 h), ← absorb]

theorem Distinct.absorb (h : Distinct rows) : Distinct (absorb rows offered) := by
  induction offered generalizing rows with
  | nil => exact h
  | cons row offered ih =>
    by_cases hconflict : row ∈ rows ∧ .null ∉ row
    · rw [absorb_cons_of_conflict hconflict]
      exact ih h
    · rw [absorb_cons_of_no_conflict hconflict]
      refine ih (List.pairwise_append.2 ⟨h, List.pairwise_singleton _ _, fun other hother last hlast => ?_⟩)
      rintro rfl
      rw [List.mem_singleton.1 hlast] at hother ⊢
      by_contra hnull
      exact hconflict ⟨hother, hnull⟩

/-- Every offered row is in the table then, and those with a null are new in it. -/
theorem absorb_eq (rows offered : List (List Sql.Value)) : ∃ added, absorb rows offered = rows ++ added ∧
    added.filter (·.contains .null) = offered.filter (·.contains .null) ∧
    ∀ row ∈ offered, row ∈ rows ++ added := by
  induction offered generalizing rows with
  | nil => exact ⟨[], (List.append_nil rows).symm, rfl, by simp⟩
  | cons row offered ih =>
    by_cases hconflict : row ∈ rows ∧ .null ∉ row
    · obtain ⟨added, hadded, hnulls, hall⟩ := ih rows
      refine ⟨added, (absorb_cons_of_conflict hconflict).trans hadded, ?_, ?_⟩
      · rw [List.filter_cons_of_neg (by simpa using hconflict.2), hnulls]
      · exact List.forall_mem_cons.2 ⟨List.mem_append_left _ hconflict.1, hall⟩
    · obtain ⟨added, hadded, hnulls, hall⟩ := ih (rows ++ [row])
      rw [List.append_assoc, List.singleton_append] at hadded hall
      refine ⟨row :: added, (absorb_cons_of_no_conflict hconflict).trans hadded, ?_, ?_⟩
      · rw [List.filter_cons, List.filter_cons, hnulls]
      · exact List.forall_mem_cons.2 ⟨by simp, hall⟩

/-- Of rows that a table has it takes those again that have a null. -/
theorem absorb_again (h : ∀ row ∈ offered, row ∈ rows) :
    absorb rows offered = rows ++ offered.filter (·.contains .null) := by
  induction offered generalizing rows with
  | nil => exact (List.append_nil rows).symm
  | cons row offered ih =>
    obtain ⟨hrow, hoffered⟩ := List.forall_mem_cons.1 h
    by_cases hnull : .null ∈ row
    · rw [absorb_cons_of_no_conflict fun hconflict => hconflict.2 hnull,
        ih fun other hother => List.mem_append_left _ (hoffered other hother),
        List.filter_cons_of_pos (by simpa using hnull), List.append_assoc, List.singleton_append]
    · rw [absorb_cons_of_conflict ⟨hrow, hnull⟩, ih hoffered,
        List.filter_cons_of_neg (by simpa using hnull)]

/-! ## The rows of a report -/

/-- The cells of a row with the name of the table that they are for. -/
abbrev Offer := String × List (CollectionColumn × Sql.Argument)

variable {objects next : List SchemaObject} {offers : List Offer} {results : List PipeResult}
  {all : List Sql.Collection} {c : Sql.Collection}

def rowsFor (offers : List Offer) (name : String) (columns : List CollectionColumn) :
    List (List Sql.Value) :=
  (offers.filter (·.1 = name)).map fun offer => tableRow columns offer.2

/-- A table absorbs the rows that are offered under its name. -/
def receive (offers : List Offer) : SchemaObject → SchemaObject
  | .table name columns rows => .table name columns (absorb rows (rowsFor offers name columns))
  | o => o

/-- There is a table of the name, and the row lacks nothing in it. -/
def Fits (objects : List SchemaObject) (offer : Offer) : Prop :=
  ∃ columns, (offer.1, columns) ∈ tablesOf objects ∧ lacking? columns (tableRow columns offer.2) = none

/-- What a report offers to the table of a collection. -/
def offer? (results : List PipeResult) (c : Sql.Collection) : Result (Option Offer) :=
  if results.any fun r => c.covers r.pipe then return (← c.row? results).map (c.tableName, ·)
  else return none

def offersOf (results : List PipeResult) : List Sql.Collection → Result (List Offer)
  | [] => .ok []
  | c :: rest => do
    let offer ← offer? results c
    return offer.toList ++ (← offersOf results rest)

theorem receive_nil (o : SchemaObject) : receive [] o = o := by
  cases o <;> rfl

theorem receive_append (offers more : List Offer) (o : SchemaObject) :
    receive (offers ++ more) o = receive more (receive offers o) := by
  cases o with
  | table name columns rows => simp [receive, rowsFor, absorb_append]
  | view | aliasView => rfl

theorem tablesOf_receive (offers : List Offer) (objects : List SchemaObject) :
    tablesOf (objects.map (receive offers)) = tablesOf objects := by
  rw [tablesOf, List.filterMap_map, tablesOf]
  refine List.filterMap_congr fun o _ => ?_
  cases o <;> rfl

theorem receive_of_other {offer : Offer} (h : ∀ columns, (offer.1, columns) ∉ tablesOf objects) :
    objects.map (receive [offer]) = objects := by
  rw [List.map_congr_left fun o ho => ?_, List.map_id]
  cases o with
  | table name columns rows =>
    have hne : offer.1 ≠ name := fun heq => h columns (heq ▸ mem_tablesOf.2 ⟨rows, ho⟩)
    simp [receive, rowsFor, hne, absorb]
  | view | aliasView => rfl

/-! ## Inserting the rows of a report -/

section

variable {name : String} {columns : List CollectionColumn} {o : SchemaObject} {rest : List SchemaObject}
  {cells : List (CollectionColumn × Sql.Argument)} {offer : Offer}

theorem insertRow_eq_ok_iff {rows' : List (List Sql.Value)} :
    (∃ n, insertRow name columns rows row = .ok (rows', n)) ↔
      lacking? columns row = none ∧ rows' = absorb rows [row] := by
  rw [insertRow, absorb, List.foldl_cons, List.foldl_nil]
  cases lacking? columns row with
  | some c => simp
  | none => cases rows.any (conflicts row) <;> simp [eq_comm]

theorem insertInto_head_eq_ok :
    (∃ n, insertInto name cells (.table name columns rows :: rest) = .ok (next, n)) ↔
      lacking? columns (tableRow columns cells) = none ∧
        next = .table name columns (absorb rows [tableRow columns cells]) :: rest := by
  rw [insertInto, if_pos rfl]
  constructor
  · rintro ⟨n, h⟩
    obtain ⟨⟨rows', m⟩, hrows, h⟩ := Result.bind_eq_ok.1 h
    cases Result.pure_eq_ok.1 h
    obtain ⟨hlacking, rfl⟩ := insertRow_eq_ok_iff.1 ⟨n, hrows⟩
    exact ⟨hlacking, rfl⟩
  · rintro ⟨hlacking, rfl⟩
    obtain ⟨n, hn⟩ := insertRow_eq_ok_iff.2 ⟨hlacking, rfl⟩
    exact ⟨n, by rw [hn]; rfl⟩

theorem insertInto_tail_eq_ok (ho : ∀ columns rows, o ≠ .table name columns rows) :
    (∃ n, insertInto name cells (o :: rest) = .ok (next, n)) ↔
      ∃ rest', (∃ n, insertInto name cells rest = .ok (rest', n)) ∧ next = o :: rest' := by
  have hcons : insertInto name cells (o :: rest) =
      insertInto name cells rest >>= fun made => .ok (o :: made.1, made.2) := by
    cases o with
    | table other columns rows =>
      have hne : other ≠ name := fun heq => ho columns rows (heq ▸ rfl)
      rw [insertInto, if_neg hne]
      rfl
    | view | aliasView => rfl
  rw [hcons]
  constructor
  · rintro ⟨n, h⟩
    obtain ⟨⟨rest', m⟩, hrest, h⟩ := Result.bind_eq_ok.1 h
    cases h
    exact ⟨rest', ⟨_, hrest⟩, rfl⟩
  · rintro ⟨rest', ⟨n, hrest⟩, rfl⟩
    exact ⟨n, by rw [hrest]; rfl⟩

/-- A row is inserted where it fits, and its table absorbs it. -/
theorem insertInto_eq_ok_iff (hnames : ((tablesOf objects).map (·.1)).Nodup) :
    (∃ n, insertInto offer.1 offer.2 objects = .ok (next, n)) ↔
      Fits objects offer ∧ next = objects.map (receive [offer]) := by
  induction objects generalizing next with
  | nil => simp [insertInto, Fits, tablesOf]
  | cons o rest ih =>
    by_cases htable : ∃ columns rows, o = .table offer.1 columns rows
    · obtain ⟨columns, rows, rfl⟩ := htable
      have honly : ∀ columns, (offer.1, columns) ∉ tablesOf rest := fun columns hmem =>
        (List.nodup_cons.1 hnames).1 (List.mem_map.2 ⟨_, hmem, rfl⟩)
      have hfits : Fits (.table offer.1 columns rows :: rest) offer ↔
          lacking? columns (tableRow columns offer.2) = none := by
        have hcons : tablesOf (.table offer.1 columns rows :: rest) = (offer.1, columns) :: tablesOf rest :=
          rfl
        simp only [Fits, hcons, List.mem_cons, honly, or_false, Prod.mk.injEq, true_and, exists_eq_left]
      rw [insertInto_head_eq_ok, hfits, List.map_cons, receive_of_other honly]
      simp [receive, rowsFor]
    · have ho : ∀ columns rows, o ≠ .table offer.1 columns rows := fun columns rows heq =>
        htable ⟨columns, rows, heq⟩
      have hsplit : tablesOf (o :: rest) = tablesOf [o] ++ tablesOf rest := List.filterMap_append (l := [o])
      have hother : ∀ columns, (offer.1, columns) ∉ tablesOf [o] := fun columns hmem => by
        obtain ⟨rows, hrows⟩ := mem_tablesOf.1 hmem
        exact ho columns rows (List.mem_singleton.1 hrows).symm
      have hfits : Fits (o :: rest) offer ↔ Fits rest offer := by
        simp only [Fits, hsplit, List.mem_append, hother, false_or]
      have hsame : receive [offer] o = o := List.singleton_inj.1 (receive_of_other hother)
      rw [hsplit, List.map_append, List.nodup_append] at hnames
      rw [insertInto_tail_eq_ok ho, hfits, List.map_cons, hsame]
      simp only [ih hnames.2.1]
      grind

/-! ## Filling collections with a report -/

theorem map_receive_nil (objects : List SchemaObject) : objects.map (receive []) = objects := by
  rw [List.map_congr_left fun o _ => receive_nil o, List.map_id']

theorem map_receive_append (offers more : List Offer) (objects : List SchemaObject) :
    objects.map (receive (offers ++ more)) = (objects.map (receive offers)).map (receive more) := by
  rw [List.map_map]
  exact List.map_congr_left fun o _ => receive_append offers more o

theorem fits_receive : Fits (objects.map (receive offers)) offer ↔ Fits objects offer := by
  rw [Fits, tablesOf_receive, Fits]

theorem fill_eq_ok_iff {n : Nat} (hnames : ((tablesOf objects).map (·.1)).Nodup) :
    (∃ m, fill results (objects, n) c = .ok (next, m)) ↔ ∃ offer, offer? results c = .ok offer ∧
      (∀ o ∈ offer.toList, Fits objects o) ∧ next = objects.map (receive offer.toList) := by
  have hfill : fill results (objects, n) c = offer? results c >>= fun offer =>
      offer.elim (.ok (objects, n)) fun o =>
        insertInto o.1 o.2 objects >>= fun made => .ok (made.1, n + made.2) := by
    unfold fill offer?
    cases results.any fun r => c.covers r.pipe with
    | false => rfl
    | true => cases c.row? results with
      | error e => rfl
      | ok cells? => cases cells? <;> rfl
  rw [hfill]
  constructor
  · rintro ⟨m, h⟩
    obtain ⟨offer, hoffer, h⟩ := Result.bind_eq_ok.1 h
    refine ⟨offer, hoffer, ?_⟩
    cases offer with
    | none =>
      cases h
      exact ⟨by simp, (map_receive_nil objects).symm⟩
    | some o =>
      obtain ⟨⟨middle, l⟩, hmiddle, h⟩ := Result.bind_eq_ok.1 h
      cases h
      obtain ⟨hfits, heq⟩ := (insertInto_eq_ok_iff hnames).1 ⟨l, hmiddle⟩
      exact ⟨List.forall_mem_singleton.2 hfits, heq⟩
  · rintro ⟨offer, hoffer, hfits, rfl⟩
    rw [hoffer]
    cases offer with
    | none => exact ⟨n, by rw [Option.toList_none, map_receive_nil]; rfl⟩
    | some o =>
      obtain ⟨l, hl⟩ := (insertInto_eq_ok_iff hnames).2 ⟨hfits o (by simp), rfl⟩
      exact ⟨n + l, by rw [Result.ok_bind, Option.elim_some, hl]; rfl⟩

/-- Collections are filled where the rows of the report fit, and their tables absorb them. -/
theorem fill_all_eq_ok_iff {n : Nat} (hnames : ((tablesOf objects).map (·.1)).Nodup) :
    (∃ m, all.foldlM (fill results) (objects, n) = .ok (next, m)) ↔
      ∃ offers, offersOf results all = .ok offers ∧ (∀ offer ∈ offers, Fits objects offer) ∧
        next = objects.map (receive offers) := by
  induction all generalizing objects n with
  | nil =>
    constructor
    · rintro ⟨m, h⟩
      cases h
      exact ⟨[], rfl, by simp, (map_receive_nil _).symm⟩
    · rintro ⟨offers, h, -, rfl⟩
      cases h
      exact ⟨n, by rw [map_receive_nil]; rfl⟩
  | cons c all ih =>
    constructor
    · rintro ⟨m, h⟩
      rw [List.foldlM_cons] at h
      obtain ⟨⟨middle, l⟩, hmiddle, h⟩ := Result.bind_eq_ok.1 h
      obtain ⟨offer, hoffer, hfirst, rfl⟩ := (fill_eq_ok_iff hnames).1 ⟨l, hmiddle⟩
      obtain ⟨offers, hoffers, hrest, rfl⟩ := (ih (by rwa [tablesOf_receive])).1 ⟨m, h⟩
      refine ⟨offer.toList ++ offers, by rw [offersOf, hoffer, hoffers]; rfl, ?_,
        (map_receive_append _ _ _).symm⟩
      exact List.forall_mem_append.2 ⟨hfirst, fun o ho => fits_receive.1 (hrest o ho)⟩
    · rintro ⟨both, h, hfits, rfl⟩
      obtain ⟨offer, hoffer, h⟩ := Result.bind_eq_ok.1 h
      obtain ⟨offers, hoffers, h⟩ := Result.bind_eq_ok.1 h
      cases Result.pure_eq_ok.1 h
      obtain ⟨hfirst, hrest⟩ := List.forall_mem_append.1 hfits
      obtain ⟨l, hl⟩ := (fill_eq_ok_iff (n := n) hnames).2 ⟨offer, hoffer, hfirst, rfl⟩
      obtain ⟨m, hm⟩ := (ih (n := l) (by rwa [tablesOf_receive])).2
        ⟨offers, hoffers, fun o ho => fits_receive.2 (hrest o ho), map_receive_append _ _ _⟩
      exact ⟨m, by rw [List.foldlM_cons, hl, Result.ok_bind, hm]⟩

end

/-! ## Reports made again -/

variable {db after : Database} {time : String} {report : Report} {receipt : Receipt}

/-- A report that succeeds offers rows to the tables; it succeeds again, and offers them again. -/
theorem receive_of_exchange (hnames : ((tablesOf db.objects).map (·.1)).Nodup)
    (h : db.exchange time report = .ok (after, receipt)) :
    ∃ offers, after.objects = db.objects.map (receive offers) ∧
      ∀ time' : String, ∃ again receipt', after.exchange time' report = .ok (again, receipt') ∧
        again.objects = after.objects.map (receive offers) := by
  have hstep := Step.exchange h
  obtain ⟨plan, targets, recorded, all, objects, n, hplan, htargets, hrecorded, hall, hfill, -, rfl⟩ :=
    exchange_eq_ok h
  obtain ⟨offers, hoffers, hfits, rfl⟩ := (fill_all_eq_ok_iff hnames).1 ⟨n, hfill⟩
  refine ⟨offers, rfl, fun time' => ?_⟩
  obtain ⟨q, hq, hcontinues⟩ := hstep.planRow? hplan
  have hkept : ((tablesOf (db.objects.map (receive offers))).map (·.1)).Nodup := by
    rwa [tablesOf_receive]
  obtain ⟨m, hagain⟩ := (fill_all_eq_ok_iff (n := 0) hkept).2
    ⟨offers, hoffers, fun o ho => fits_receive.2 (hfits o ho), rfl⟩
  exact ⟨_, _, exchange_eq hq (hcontinues.pipes ▸ htargets) hrecorded hall hagain, rfl⟩

/-- The tables of a database have names of their own, and rows that are distinct. -/
structure DistinctTables (db : Database) : Prop where
  names : ((tablesOf db.objects).map (·.1)).Nodup
  rows : ∀ name columns rows, .table name columns rows ∈ db.objects → Distinct rows

theorem DistinctTables.step {next : Database} (hd : DistinctTables db) (h : Step db next) :
    DistinctTables next := by
  refine ⟨h.schema.nodup_tableNames hd.names, fun name columns rows hmem => ?_⟩
  obtain ⟨-, hunfilled⟩ | ⟨time, report, receipt, h⟩ := h.schema_or_exchange
  · obtain hold | rfl := hunfilled name columns rows hmem
    · exact hd.rows name columns rows hold
    · exact .nil
  · obtain ⟨offers, hobjects, -⟩ := receive_of_exchange hd.names h
    rw [hobjects] at hmem
    obtain ⟨o, ho, heq⟩ := List.mem_map.1 hmem
    cases o with
    | table =>
      cases heq
      exact (hd.rows _ _ _ ho).absorb
    | view | aliasView => cases heq

/-- After any changes two rows of a table are equal only if they hold a null. A report that succeeds
does so again, and then adds those rows again that it has added with a null, and no others. -/
theorem only_rows_with_null_repeat (cs : List Change) (hread : ∀ c ∈ cs, c.AsRead) :
    (∀ name columns rows, .table name columns rows ∈ (ofChanges cs).objects → Distinct rows) ∧
    ∀ time report after receipt, (ofChanges cs).exchange time report = .ok (after, receipt) →
      ∀ time' : String, ∃ again receipt', after.exchange time' report = .ok (again, receipt') ∧
        ∀ name columns rows, .table name columns rows ∈ (ofChanges cs).objects →
          ∃ added, .table name columns (rows ++ added) ∈ after.objects ∧
            .table name columns (rows ++ added ++ added.filter (·.contains .null)) ∈ again.objects := by
  have hdistinct : DistinctTables (ofChanges cs) := ofChanges_keeps hread
    ⟨List.nodup_nil, by simp [empty]⟩ fun _ hd hstep => hd.step hstep
  refine ⟨hdistinct.rows, fun time report after receipt h time' => ?_⟩
  obtain ⟨offers, hafter, hagain⟩ := receive_of_exchange hdistinct.names h
  obtain ⟨again, receipt', hexchange, hobjects⟩ := hagain time'
  refine ⟨again, receipt', hexchange, fun name columns rows hmem => ?_⟩
  obtain ⟨added, hadded, hnulls, hall⟩ := absorb_eq rows (rowsFor offers name columns)
  have hmem' : .table name columns (rows ++ added) ∈ after.objects := by
    rw [hafter, ← hadded]
    exact List.mem_map_of_mem hmem
  refine ⟨added, hmem', ?_⟩
  rw [hobjects, hnulls, ← absorb_again hall]
  exact List.mem_map_of_mem hmem'

/-- The title is also in a view beside a subtitle, which may be missing. -/
def titleWithSubtitle : List Change := titleInView ++ [planOfPage] ++
  [.createResource ⟨4⟩ (.ofSpec "subtitle" (.pipe ⟨[.ofKind .document], { nullable := true }⟩)),
    .createView ⟨5⟩ { columns := [{ pipe := .bare "title" }, { pipe := .bare "subtitle" }] }]

/-- The title is reported twice. Its own view takes it once, the view with the subtitle takes it twice. -/
theorem title_without_subtitle_repeats :
    (∀ c ∈ titleWithSubtitle, c.AsRead) ∧ ∃ after again receipt receipt',
      (ofChanges titleWithSubtitle).exchange "" oneTitle = .ok (after, receipt) ∧
      after.exchange "" oneTitle = .ok (again, receipt') ∧
      (∀ name columns rows, .table name columns rows ∈ (ofChanges titleWithSubtitle).objects →
        ∃ added, .table name columns (rows ++ added) ∈ after.objects ∧
          .table name columns (rows ++ added ++ added.filter (·.contains .null)) ∈ again.objects) ∧
      again.objects.filterMap (fun | .table _ _ rows => some rows | _ => none) =
        [[[.text "first"]], [[.text "first", .null], [.text "first", .null]]] := by
  have hread : ∀ c ∈ titleWithSubtitle, c.AsRead := by
    refine List.forall_mem_append.2 ⟨asRead_planOfPage, List.forall_mem_cons.2 ⟨?_, ?_⟩⟩
    · exact List.forall_mem_singleton.2 (Action.readable_ofKind _)
    · exact List.forall_mem_singleton.2 trivial
  have hrun :
      let db := Change.after (Change.after titlePlanned
        (.createResource ⟨4⟩ (.ofSpec "subtitle" (.pipe ⟨[.ofKind .document], { nullable := true }⟩))))
        (.createView ⟨5⟩ { columns := [{ pipe := .bare "title" }, { pipe := .bare "subtitle" }] })
      (db.exchange "" oneTitle).toOption.any (fun a =>
        (a.1.exchange "" oneTitle).toOption.any fun b =>
          decide (b.1.objects.filterMap (fun | .table _ _ rows => some rows | _ => none) =
            [[[.text "first"]], [[.text "first", .null], [.text "first", .null]]])) = true := by
    decide +kernel
  dsimp only at hrun
  rw [← titlePlanned_eq, ← ofChanges_concat, ← ofChanges_concat, List.append_assoc _ [_] [_],
    List.singleton_append, ← titleWithSubtitle] at hrun
  obtain ⟨⟨after, receipt⟩, hafter, hrun⟩ := Result.exists_ok_of_any hrun
  obtain ⟨⟨again, receipt'⟩, hagain, hrows⟩ := Result.exists_ok_of_any hrun
  obtain ⟨-, hreports⟩ := only_rows_with_null_repeat titleWithSubtitle hread
  obtain ⟨again', receipt'', hagain', htables⟩ := hreports "" oneTitle after receipt hafter ""
  cases hagain.symm.trans hagain'
  exact ⟨hread, after, again, receipt, receipt', hafter, hagain, htables, of_decide_eq_true hrows⟩

end PagePipes.Database
