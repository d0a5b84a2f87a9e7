import PagePipes.Proofs.Database.Filling

set_option autoImplicit false

/-!
# All that a report does

A report on a stored plan that names planned pipes, none of them twice, with values that their points
take, is never turned down. It leaves one event behind, with a value for each pipe that it names, adds
at most one row to the table of each stored view, and finishes its plan. Nothing else changes.
-/
namespace PagePipes.Database

variable {db next : Database} {plan : PlanRow} {report : Report} {time : String} {receipt : Receipt}

def collectionNames (db : Database) : List String :=
  db.views.filterMap fun row => row.view.toOption.map row.tableName

/-- What a report says of a pipe. -/
def reportedOf (plan : PlanRow) (report : Report) (k : Key) : Option Json :=
  (reportsOf plan report.results).lookup k

/-- What a report comes to that succeeds. -/
structure Exchanged (db : Database) (plan : PlanRow) (time : String) (report : Report) (next : Database)
    (receipt : Receipt) : Prop where
  /-- The event has a value for each pipe, the tables of the stored views get their rows, the plan is
  finished, and all else stays. -/
  next_eq : next = { db with
    events := db.events ++ [⟨time, report.url, report.uuid,
      (reportsOf plan report.results).map fun e => (e.1, storedAs (db.pointOf e.1) e.2)⟩]
    objects := db.objects.map (feed (reportedOf plan report) db.collectionNames)
    plans := db.plans.map fun p => if p.uuid = report.uuid then { p with finished := true } else p }
  /-- Each stored view has a table of its own. -/
  tabled : Tabled db
  /-- The table of a view has its columns, and gets the row of the report if there is one. -/
  views : ∀ row ∈ db.views, ∃ v rows, row.view = .ok v ∧
    .table (row.tableName v) (db.columnsOf v) rows ∈ db.objects ∧
    .table (row.tableName v) (db.columnsOf v)
      (rows ++ addedRows (reportedOf plan report) (db.columnsOf v) rows) ∈ next.objects
  event : receipt.event = next.events.length
  results : receipt.results = report.results.length
  rows : rowCount next.objects = rowCount db.objects + receipt.rows

/-! ## The collections of the stored views -/

theorem mem_collectionNames {name : String} : name ∈ db.collectionNames ↔
    ∃ row ∈ db.views, ∃ v, row.view = .ok v ∧ row.tableName v = name := by
  simp only [collectionNames, List.mem_filterMap, Option.map_eq_some_iff, Result.toOption_eq_some]

theorem Tabled.nodup_collectionNames (ht : Tabled db) (huuids : (db.views.map (·.uuid)).Nodup) :
    db.collectionNames.Nodup := by
  rw [collectionNames, List.Nodup, List.pairwise_filterMap]
  refine (List.Nodup.of_map _ huuids).imp_of_mem ?_
  rintro row other hrow hother hne name hname name' hname' rfl
  obtain ⟨v, hv, rfl⟩ := Option.map_eq_some_iff.1 hname
  obtain ⟨w, hw, heq⟩ := Option.map_eq_some_iff.1 hname'
  exact hne (ht.distinct row hrow other hother v w (Result.toOption_eq_some.1 hv)
    (Result.toOption_eq_some.1 hw) heq.symm)

/-- A collection has the table and the columns of its view. -/
theorem collection_of_row {row : ViewRow} {c : Sql.Collection}
    (h : (do
      let v ← row.view
      Sql.Collection.ofView row.uuid v row.digest (← db.points v)) = .ok c) :
    ∃ v, row.view = .ok v ∧ c.tableName = row.tableName v ∧ c.columns = db.columnsOf v := by
  obtain ⟨v, hv, h⟩ := Result.bind_eq_ok.1 h
  obtain ⟨points, hpoints, h⟩ := Result.bind_eq_ok.1 h
  refine ⟨v, hv, Sql.Collection.tableName_of_ofView h, ?_⟩
  rw [columnsOf, ← List.forall₂_eq_eq_eq, List.forall₂_map_right_iff]
  refine (columns_of_ofView hpoints h).flip.imp ?_
  rintro ⟨name, pipe, point⟩ d ⟨rfl, rfl, rfl⟩
  rfl

theorem tableNames_of_collections {all : List Sql.Collection} (h : db.collections = .ok all) :
    all.map (·.tableName) = db.collectionNames := by
  have hrows := Result.mapM_eq_ok.1 h
  rw [collectionNames]
  clear h
  generalize db.views = rows at hrows
  induction hrows with
  | nil => rfl
  | cons hmade _ ih =>
    obtain ⟨v, hv, hname, -⟩ := collection_of_row hmade
    rw [List.map_cons, ih, List.filterMap_cons, Result.toOption_eq_some.2 hv, hname]
    rfl

/-! ## Reports without repetitions -/

/-- The values of a report are recorded when its results are of targets, and of their points. -/
theorem addResults_succeed {targets : List Target} {results : List PipeResult} (u : Uuid)
    (h : ∀ r ∈ results, (∃ t ∈ targets, t.answers r.pipe = true) ∧ ∀ t ∈ targets,
      t.answers r.pipe = true → ∃ a, Sql.Argument.ofJson t.point r.result = .ok a) (recorded : Recorded) :
    ∃ recorded', results.foldlM (Recorded.addResult u targets) recorded = .ok recorded' := by
  refine Result.foldlM_succeeds (fun r hr recorded => ?_) recorded
  obtain ⟨⟨t, ht, hanswers⟩, haccepts⟩ := h r hr
  have hnamed : ∀ t ∈ targets.filter (·.answers r.pipe),
      ∀ recorded : Recorded, ∃ recorded', recorded.add t r.result = .ok recorded' := fun t ht recorded => by
    obtain ⟨ht, hanswers⟩ := List.mem_filter.1 ht
    obtain ⟨a, ha⟩ := haccepts t ht hanswers
    exact ⟨_, by rw [Recorded.add, ha]; rfl⟩
  unfold Recorded.addResult
  split
  · next hnone => exact absurd (List.mem_filter.2 ⟨ht, hanswers⟩) (hnone ▸ List.not_mem_nil)
  · exact Result.foldlM_succeeds hnamed recorded

theorem mem_reportsOf {p : PlannedPipe} {r : PipeResult} (hp : p ∈ plan.pipes) (hr : r ∈ report.results)
    (h : p.answers r.pipe = true) : (p.name, r.result) ∈ reportsOf plan report.results :=
  List.mem_flatMap.2 ⟨r, hr, List.mem_map.2 ⟨p, List.mem_filter.2 ⟨hp, h⟩, rfl⟩⟩

theorem exchange_eq {targets : List Target} {recorded : Recorded} {all : List Sql.Collection}
    {objects : List SchemaObject} {n : Nat} (hplan : db.planRow? report.uuid = some plan)
    (htargets : plan.pipes.mapM db.target = .ok targets)
    (hrecorded : report.results.foldlM (Recorded.addResult report.uuid targets) {} = .ok recorded)
    (hall : db.collections = .ok all)
    (hfill : all.foldlM (fill (recorded.reported.toList.map fun (k, j) => PipeResult.mk k j))
      (db.objects, 0) = .ok (objects, n)) :
    db.exchange time report = .ok ({ db with
      events := db.events ++ [⟨time, report.url, report.uuid, recorded.values⟩]
      objects
      plans := db.plans.map fun p => if p.uuid = report.uuid then { p with finished := true } else p },
      ⟨db.events.length + 1, report.results.length, n⟩) := by
  simp only [exchange, hplan, htargets, hrecorded, hall, hfill, Result.ok_bind]
  rfl

/-- Reports on planned pipes with values that their points take are all recorded. -/
theorem exists_recorded (hplanned : ∀ r ∈ report.results, ∃ p ∈ plan.pipes, p.answers r.pipe = true)
    (haccepts : ∀ e ∈ reportsOf plan report.results, (db.pointOf e.1).Accepts e.2) :
    ∃ recorded, report.results.foldlM (Recorded.addResult report.uuid (db.targetsOf plan)) {} =
        .ok recorded ∧ Recorded.Keeps db.pointOf (reportsOf plan report.results) recorded := by
  obtain ⟨recorded, hrecorded⟩ : ∃ recorded, report.results.foldlM
      (Recorded.addResult report.uuid (db.targetsOf plan)) {} = .ok recorded := by
    refine addResults_succeed report.uuid (fun r hr => ⟨?_, ?_⟩) {}
    · obtain ⟨p, hp, hanswers⟩ := hplanned r hr
      exact ⟨_, List.mem_map_of_mem hp, hanswers⟩
    · refine List.forall_mem_map.2 fun p hp hanswers => ?_
      obtain ⟨a, ha, -⟩ := haccepts _ (mem_reportsOf hp hr hanswers)
      exact ⟨a, ha⟩
  refine ⟨recorded, hrecorded, ?_⟩
  rw [← reports_targetsOf db]
  exact Recorded.keeps_of_addResults (List.forall_mem_map.2 fun p _ => rfl) hrecorded

/-- The table of a collection is there and takes the row of the report. -/
theorem collection_takes {all : List Sql.Collection} {c : Sql.Collection} (hs : db.Sound) (ht : Tabled db)
    (honce : ((reportsOf plan report.results).map (·.1)).Nodup)
    (haccepts : ∀ e ∈ reportsOf plan report.results, (db.pointOf e.1).Accepts e.2)
    (hall : db.collections = .ok all) (hc : c ∈ all) : (c.columns.map (·.name)).Nodup ∧
      (c.tableName, c.columns) ∈ tablesOf db.objects ∧ Takes (reportedOf plan report) c.columns := by
  obtain ⟨hnames, hpoints⟩ := hs.collections hall hc
  obtain ⟨row, hrow, hmade⟩ := Result.exists_of_forall₂ (Result.mapM_eq_ok.1 hall).flip hc
  obtain ⟨v, hv, hname, hcolumns⟩ := collection_of_row hmade
  refine ⟨hnames, hname ▸ hcolumns ▸ ht.made row hrow v hv, fun col hcol j hj => ?_⟩
  rw [hpoints col hcol]
  exact haccepts _ ((Lookup.lookup_eq_some_iff_mem honce).1 hj)

theorem exchanged (hs : db.Sound) (hp : SoundPlans db) (huuids : (db.views.map (·.uuid)).Nodup)
    (ht : Tabled db) (hplan : db.planRow? report.uuid = some plan)
    (hplanned : ∀ r ∈ report.results, ∃ p ∈ plan.pipes, p.answers r.pipe = true)
    (honce : ((reportsOf plan report.results).map (·.1)).Nodup)
    (haccepts : ∀ e ∈ reportsOf plan report.results, (db.pointOf e.1).Accepts e.2) :
    ∃ next receipt, db.exchange time report = .ok (next, receipt) ∧
      Exchanged db plan time report next receipt := by
  have htargets := hp.mapM_target hs (mem_of_planRow? hplan).1
  obtain ⟨all, hall⟩ := hs.collections_succeed
  obtain ⟨recorded, hrecorded, hkeeps⟩ := exists_recorded hplanned haccepts
  -- what the collections are asked to fill is what the report says
  have hvalue : Sql.Collection.reported? (recorded.reported.toList.map fun (k, j) => PipeResult.mk k j) =
      reportedOf plan report := by
    funext k
    rw [Recorded.reported?_eq, hkeeps.last, Lookup.lookup_reverse honce, reportedOf]
  have hdistinct := ht.nodup_collectionNames huuids
  rw [← tableNames_of_collections hall] at hdistinct
  obtain ⟨added, hfill, hcount⟩ := fill_all_eq (n := 0) hdistinct ht.names
    (hvalue ▸ fun c hc => collection_takes hs ht honce haccepts hall hc)
  rw [hvalue, tableNames_of_collections hall] at hfill hcount
  refine ⟨_, _, exchange_eq hplan htargets hrecorded hall hfill, ?_, ht, fun row hrow => ?_, ?_, rfl, ?_⟩
  · rw [hkeeps.all honce]
  · obtain ⟨v, hv, -⟩ := hs.views.each row hrow
    obtain ⟨rows, ho⟩ := mem_tablesOf.1 (ht.made row hrow v hv)
    have hname : row.tableName v ∈ db.collectionNames := mem_collectionNames.2 ⟨row, hrow, v, hv, rfl⟩
    refine ⟨v, rows, hv, ho, List.mem_map.2 ⟨_, ho, ?_⟩⟩
    rw [feed, if_pos hname]
  · simp
  · rw [hcount, Nat.zero_add]

/-- A report on a stored plan, whose results are each of a planned pipe, which are all different, and
whose values are taken by the points of the pipes, succeeds, and does just what a report is to do. This
is so after any changes, unless two texts that were stored have one digest. -/
theorem exchange_effect_exact (cs : List Change) (hread : ∀ c ∈ cs, c.AsRead)
    (hproper : ∀ c ∈ cs, c.DrawsProper) {plan : PlanRow} (time : String) {report : Report}
    (hplan : (ofChanges cs).planRow? report.uuid = some plan)
    (hplanned : ∀ r ∈ report.results, ∃ p ∈ plan.pipes, p.answers r.pipe = true)
    (honce : ((reportsOf plan report.results).map (·.1)).Nodup)
    (haccepts : ∀ e ∈ reportsOf plan report.results, ((ofChanges cs).pointOf e.1).Accepts e.2) :
    (∃ next receipt, (ofChanges cs).exchange time report = .ok (next, receipt) ∧
      Exchanged (ofChanges cs) plan time report next receipt) ∨ DigestsCollide cs := by
  by_cases hcollide : DigestsCollide cs
  · exact .inr hcollide
  · exact .inl (exchanged (sound_ofChanges hread) (soundPlans_ofChanges hread)
      (soundSqlViews_ofChanges hread).uuids (tabled_ofChanges hread hproper hcollide) hplan hplanned honce
      haccepts)

def oneTitle : Report := { uuid := ⟨3⟩, results := [⟨plannedTitle.name, .str "first"⟩] }

theorem titleInView_not_collide : ¬ DigestsCollide (titleInView ++ [planOfPage]) := by
  have hrun : (∀ before ∈ titleInView.inits, ∀ s ∈ (ofChanges before).specs, s ∈ titlePlanned.specs) ∧
      (titlePlanned.specs.map Checksum.Sha1.digestText).Nodup := by decide +kernel
  rw [← titlePlanned_eq] at hrun
  obtain ⟨hearlier, hdigests⟩ := hrun
  refine not_digestsCollide (fun before hbefore s hs => ?_) hdigests
  obtain rfl | hbefore := List.prefix_concat_iff.1 hbefore
  · exact hs
  · exact hearlier before ((List.mem_inits _ _).2 hbefore) s hs

/-- The report on the title adds one row to the table of the view. -/
theorem one_title_exchanged :
    (∀ c ∈ titleInView ++ [planOfPage], c.AsRead ∧ c.DrawsProper) ∧
    ∃ plan next receipt,
      (ofChanges (titleInView ++ [planOfPage])).exchange "" oneTitle = .ok (next, receipt) ∧
      Exchanged (ofChanges (titleInView ++ [planOfPage])) plan "" oneTitle next receipt ∧
      receipt = ⟨1, 1, 1⟩ := by
  have hboth : ∀ c ∈ titleInView ++ [planOfPage], c.AsRead ∧ c.DrawsProper := by
    simp only [titleInView, planOfPage, List.cons_append, List.nil_append, List.mem_cons, List.not_mem_nil,
      or_false]
    rintro c (rfl | rfl | rfl | rfl)
    · exact ⟨List.forall_mem_singleton.2 (Action.readable_ofKind _), (by decide : Uuid.Proper ⟨1⟩)⟩
    · exact ⟨trivial, trivial⟩
    · exact ⟨trivial, (by decide : Uuid.Proper ⟨2⟩)⟩
    · exact ⟨trivial, (by decide : Uuid.Proper ⟨3⟩)⟩
  have hrun : (decide (titlePlanned.pointOf plannedTitle.name = {}) &&
      ((titlePlanned.planRow? oneTitle.uuid).any fun plan =>
        decide (plan.pipes.map (·.name) = [plannedTitle.name]) &&
        decide (reportsOf plan oneTitle.results = [(plannedTitle.name, .str "first")])) &&
      (titlePlanned.exchange "" oneTitle).toOption.any fun a => decide (a.2 = ⟨1, 1, 1⟩)) = true := by
    decide +kernel
  rw [← titlePlanned_eq] at hrun
  obtain ⟨⟨hpoint, hplan⟩, hreceipt⟩ : (_ ∧ _) ∧ _ := by simpa only [Bool.and_eq_true] using hrun
  obtain ⟨plan, hplan, hpipes⟩ := (Option.any_eq_true _ _).1 hplan
  obtain ⟨hnames, hreports⟩ : _ ∧ _ := by simpa only [Bool.and_eq_true, decide_eq_true_eq] using hpipes
  obtain ⟨⟨next, receipt⟩, hnext, hreceipt⟩ := Result.exists_ok_of_any hreceipt
  have hplanned : ∀ r ∈ oneTitle.results, ∃ p ∈ plan.pipes, p.answers r.pipe = true := by
    refine List.forall_mem_singleton.2 ?_
    obtain ⟨p, hp, hname⟩ := List.mem_map.1 (hnames ▸ List.mem_singleton_self plannedTitle.name)
    exact ⟨p, hp, by simp [PlannedPipe.answers, hname]⟩
  have haccepts : ∀ e ∈ reportsOf plan oneTitle.results,
      ((ofChanges (titleInView ++ [planOfPage])).pointOf e.1).Accepts e.2 := by
    rw [hreports]
    refine List.forall_mem_singleton.2 ?_
    rw [of_decide_eq_true hpoint]
    exact ⟨.text "first", rfl, fun x h => by cases h⟩
  obtain ⟨next', receipt', hnext', hexchanged⟩ | hcollide := exchange_effect_exact
    (titleInView ++ [planOfPage]) (fun c hc => (hboth c hc).1) (fun c hc => (hboth c hc).2) "" hplan hplanned
    (by simp [hreports]) haccepts
  · cases hnext.symm.trans hnext'
    exact ⟨hboth, plan, next, receipt, hnext, hexchanged, of_decide_eq_true hreceipt⟩
  · exact absurd hcollide titleInView_not_collide

end PagePipes.Database
