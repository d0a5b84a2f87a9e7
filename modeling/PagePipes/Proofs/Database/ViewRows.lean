import PagePipes.Proofs.Database.SqlViews

set_option autoImplicit false

/-!
# Rows of stored views

The rows of a stored view show every event once and in order: each column what was first reported of
its pipe, or null when the report says nothing of it. Only a view of too many columns has no rows,
because the query cannot join that many tables.
-/
namespace PagePipes.Database

variable {db : Database} {k : Key} {e : Event} {columns : List Sql.CollectionColumn}

/-- What a row holds for a pipe: what was first reported of it, or null when nothing was. -/
inductive ShowsReport (point : Point) (reports : List (Key × Json)) (e : Event) (k : Key) : Json → Prop
  | absent (hreport : reports.lookup k = none) (hevent : e.results.lookup k = none) :
      ShowsReport point reports e k .null
  | reported {j : Json} {value : Sql.Value} (hreport : reports.lookup k = some j)
      (hevent : e.results.lookup k = some value) (hshown : Sql.Shown point j value.toJson) :
      ShowsReport point reports e k value.toJson

/-- A row shows an event: every column of the view, and then the time and the URL. -/
def ShowsEvent (db : Database) (reports : List (Key × Json)) (columns : List Column) (e : Event)
    (row : Json) : Prop :=
  ∃ cells, row = .obj (cells ++ [("Timestamp", .str e.timestamp), ("URL", .str e.url)]) ∧
    List.Forall₂ (fun (c : Column) (cell : String × Json) => cell.1 = c.name ∧
      ShowsReport (db.pointOf c.pipe) reports e c.pipe cell.2) columns cells

/-! ## Values of events -/

section Keeps

variable {reports : List (Key × Json)} {r : Recorded}

theorem Recorded.Keeps.value_of_lookup (h : r.Keeps db.pointOf reports) {j : Json}
    (hk : reports.lookup k = some j) : ∃ value, r.values.lookup k = some value ∧
      Sql.Shown (db.pointOf k) j value.toJson ∧ value.isOf (db.pointOf k) = true := by
  obtain ⟨before, after, hreports, -⟩ := List.lookup_eq_some_iff.1 hk
  obtain ⟨a, ha⟩ := h.accepted (k, j) (by simp [hreports])
  obtain ⟨hshown, hof⟩ := Sql.shown_of_ofJson ha
  refine ⟨.ofArgument a, ?_, hshown, hof⟩
  rw [h.first, hk, Option.map_some, storedAs_of_ok ha]

theorem Recorded.Keeps.showsReport (h : r.Keeps db.pointOf reports) (he : e.results = r.values) (k : Key) :
    ShowsReport (db.pointOf k) reports e k (e.valueOf k).toJson ∧
      (e.valueOf k).isOf (db.pointOf k) = true := by
  cases hk : reports.lookup k with
  | none =>
    have hnone : e.results.lookup k = none := by rw [he, h.first, hk, Option.map_none]
    rw [Event.valueOf, hnone]
    exact ⟨.absent hk hnone, rfl⟩
  | some j =>
    obtain ⟨value, hvalue, hshown, hof⟩ := h.value_of_lookup hk
    rw [← he] at hvalue
    rw [Event.valueOf, hvalue]
    exact ⟨.reported hk hvalue hshown, hof⟩

end Keeps

/-! ## Rows as JSON -/

theorem freshName_eq {names : List String} {name : String}
    (h : ∀ n ∈ names, Key.lower n ≠ Key.lower name) : freshName names name = name := by
  rw [freshName, if_neg]
  simpa using h

theorem showsEvent_eventRow {reports : List (Key × Json)} {shown : List Column}
    (hmade : List.Forall₂ db.MadeFor shown columns)
    (hnames : ∀ c ∈ shown, c.name ≠ "timestamp" ∧ c.name ≠ "url")
    (hcells : ∀ k, ShowsReport (db.pointOf k) reports e k (e.valueOf k).toJson) :
    db.ShowsEvent reports shown e
      (.obj ((eventRow columns e).map fun (name, v) => (name, v.toJson))) := by
  have hlower : ∀ n ∈ columns.map (·.name), Key.lower n = n ∧ n ≠ "timestamp" ∧ n ≠ "url" := by
    refine List.forall_mem_map.2 fun col hcol => ?_
    obtain ⟨c, hc, hfor⟩ := Result.exists_of_forall₂ hmade.flip hcol
    rw [hfor.name]
    exact ⟨hfor.lower, hnames c hc⟩
  have htime : freshName (columns.map (·.name)) "Timestamp" = "Timestamp" := by
    refine freshName_eq fun n hn => ?_
    rw [(hlower n hn).1]
    exact (hlower n hn).2.1
  have hurl : freshName (columns.map (·.name)) "URL" = "URL" := by
    refine freshName_eq fun n hn => ?_
    rw [(hlower n hn).1]
    exact (hlower n hn).2.2
  refine ⟨columns.map fun c => (c.name, (e.valueOf c.pipe).toJson), ?_, ?_⟩
  · simp [eventRow, htime, hurl, Sql.Value.toJson]
  · rw [List.forall₂_map_right_iff]
    exact hmade.imp fun c col hfor => ⟨hfor.name, hfor.pipe ▸ hcells c.pipe⟩

/-- The rows of a stored view are its columns at every event, unless the query joins too many tables. -/
theorem SoundSqlViews.viewRows_eq (hq : SoundSqlViews db) (hs : db.Sound) {row : ViewRow} {v : View}
    (hrow : row ∈ db.views) (hv : row.view = .ok v) (hdistinct : db.DistinctResults)
    (hof : ∀ e ∈ db.events, ∀ k, (e.valueOf k).isOf (db.pointOf k) = true) :
    ∃ columns, List.Forall₂ db.MadeFor v.columns columns ∧ db.viewRows row.uuid =
      if joinLimit ≤ v.columns.length then .error (.internal "at most 64 tables in a join")
      else .ok (db.events.map (eventRow columns)) := by
  obtain ⟨columns, hmade, hfound⟩ := hq.exists_columns hrow hv
  have hcolumns : ∀ col ∈ columns, db.Stores col.pipe ∧ col.point = db.pointOf col.pipe :=
    fun col hcol => by
      obtain ⟨c, hc, hfor⟩ := Result.exists_of_forall₂ hmade.flip hcol
      rw [hfor.pipe]
      exact ⟨(hs.linked_of_column hrow hv hc).2, hfor.point⟩
  have hjoined := rows_of_joinedRows hdistinct (fun col hcol => (hcolumns col hcol).1)
    fun e he col hcol => (hcolumns col hcol).2 ▸ hof e he col.pipe
  refine ⟨columns, hmade, ?_⟩
  rw [viewRows, hfound, hmade.length_eq]
  simp only [hjoined]
  rfl

theorem viewRowsJson_eq (huuids : (db.views.map (·.uuid)).Nodup) {row : ViewRow} {v : View}
    (hrow : row ∈ db.views) (hv : row.view = .ok v) :
    db.viewRowsJson row.uuid = (db.viewRows row.uuid).map fun rows =>
      rows.map fun cells => .obj (cells.map fun (name, v) => (name, v.toJson)) := by
  have hfound : db.viewRow? row.uuid = some row := Lookup.find?_key huuids hrow
  have hstored : db.storedView row.uuid = .ok ⟨row.uuid, row.digest, v⟩ := by
    rw [storedView, hfound]
    simp [ViewRow.stored, hv]
  rw [viewRowsJson, hstored]
  rfl

/-- The rows of a stored view show all events in their order, each as it was reported on the plan that
it names, unless the view has more columns than one query can join. -/
theorem view_rows_show_events (cs : List Change) (hread : ∀ c ∈ cs, c.AsRead) {row : ViewRow} {v : View}
    (hrow : row ∈ (ofChanges cs).views) (hv : row.view = .ok v)
    (hnames : ∀ c ∈ v.columns, c.name ≠ "timestamp" ∧ c.name ≠ "url") :
    (joinLimit ≤ v.columns.length → (ofChanges cs).viewRowsJson row.uuid =
      .error (.internal "at most 64 tables in a join")) ∧
    (v.columns.length < joinLimit → ∃ rows, (ofChanges cs).viewRowsJson row.uuid = .ok rows ∧
      List.Forall₂ (fun e shown => ∃ report plan, Change.exchange e.timestamp report ∈ cs ∧
        e.url = report.url ∧ (ofChanges cs).planRow? report.uuid = some plan ∧
        (ofChanges cs).ShowsEvent (reportsOf plan report.results) v.columns e shown)
        (ofChanges cs).events rows) := by
  have hs := sound_ofChanges hread
  have hreported := reported_ofChanges hread
  have hq := soundSqlViews_ofChanges hread
  generalize ofChanges cs = db at *
  have hcells : ∀ e ∈ db.events, ∃ report plan, Change.exchange e.timestamp report ∈ cs ∧
      e.url = report.url ∧ db.planRow? report.uuid = some plan ∧ (e.results.map (·.1)).Nodup ∧
      ∀ k, ShowsReport (db.pointOf k) (reportsOf plan report.results) e k (e.valueOf k).toJson ∧
        (e.valueOf k).isOf (db.pointOf k) = true := fun e he => by
    obtain ⟨report, hmem, hurl, -, plan, r, hplan, hresults, hkeeps⟩ := hreported e he
    exact ⟨report, plan, hmem, hurl, hplan, hresults ▸ hkeeps.keys, hkeeps.showsReport hresults⟩
  have hdistinct : db.DistinctResults := fun e he => by
    obtain ⟨_, _, -, -, -, hkeys, -⟩ := hcells e he
    exact hkeys
  obtain ⟨columns, hmade, hrows⟩ := hq.viewRows_eq hs hrow hv hdistinct fun e he k => by
    obtain ⟨_, _, -, -, -, -, hshows⟩ := hcells e he
    exact (hshows k).2
  rw [viewRowsJson_eq hq.uuids hrow hv, hrows]
  constructor
  · intro hmany
    rw [if_pos hmany]
    rfl
  · intro hfew
    rw [if_neg (Nat.not_le.2 hfew)]
    refine ⟨_, rfl, ?_⟩
    rw [List.forall₂_map_right_iff, List.forall₂_map_right_iff, List.forall₂_same]
    intro e he
    obtain ⟨report, plan, hmem, hurl, hplan, -, hshows⟩ := hcells e he
    exact ⟨report, plan, hmem, hurl, hplan, showsEvent_eventRow hmade hnames fun k => (hshows k).1⟩

theorem title_row_shows_event :
    (∀ c ∈ titleReported, c.AsRead) ∧ (ofChanges titleReported).events.length = 1 ∧
      ∃ row ∈ (ofChanges titleReported).views, ∃ v, row.view = .ok v ∧
        (∀ c ∈ v.columns, c.name ≠ "timestamp" ∧ c.name ≠ "url") ∧ v.columns.length < joinLimit ∧
        ∃ shown, (ofChanges titleReported).viewRowsJson row.uuid = .ok [shown] := by
  have hread : ∀ c ∈ titleReported, c.AsRead := by
    simp only [titleReported, titleInView, List.cons_append, List.nil_append, List.mem_cons,
      List.not_mem_nil, or_false]
    rintro c (rfl | rfl | rfl | rfl | rfl)
    · exact List.forall_mem_singleton.2 (Action.readable_ofKind _)
    · trivial
    · trivial
    · trivial
    · trivial
  have hrun : (titlePlanned.exchange "" twoTitles).toOption.any (fun a => a.1.events.length == 1 &&
      a.1.views.any fun row => row.view.toOption.any fun v =>
        decide ((∀ c ∈ v.columns, c.name ≠ "timestamp" ∧ c.name ≠ "url") ∧
          v.columns.length < joinLimit)) = true := by decide +kernel
  rw [← titlePlanned_eq] at hrun
  obtain ⟨⟨next, receipt⟩, hnext, hrun⟩ := Result.exists_ok_of_any hrun
  have hmade : ofChanges titleReported = next := by
    rw [titleReported, ofChanges_concat, Change.after, Change.apply, hnext]
  obtain ⟨hlength, hviews⟩ := Bool.and_eq_true_iff.1 hrun
  obtain ⟨row, hrow, hview⟩ := List.any_eq_true.1 hviews
  obtain ⟨v, hv, hdecided⟩ := Result.exists_ok_of_any hview
  obtain ⟨hnames, hfew⟩ := of_decide_eq_true hdecided
  rw [← hmade] at hrow hlength
  obtain ⟨rows, hrows, hshown⟩ := (view_rows_show_events titleReported hread hrow hv hnames).2 hfew
  have hone : (ofChanges titleReported).events.length = 1 := by simpa using hlength
  obtain ⟨shown, rfl⟩ := List.length_eq_one_iff.1 (hshown.length_eq ▸ hone)
  exact ⟨hread, hone, row, hrow, v, hv, hnames, hfew, shown, hrows⟩

end PagePipes.Database
