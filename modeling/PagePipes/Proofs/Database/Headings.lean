import PagePipes.Proofs.Database.Aliases
import PagePipes.Proofs.Database.ViewRows

set_option autoImplicit false

/-!
# Headings of stored views

The SQL view of a stored view selects its columns, and behind them the time and the URL of an event.
A valid view tells its columns apart, but it may name one of them as the time or the URL, and the
store compares names without case: then the time or the URL is shown under another name. Where no
column is named so, all headings are distinct.
-/
namespace PagePipes

namespace View

variable {v : View}

/-- The headings of an SQL view: the columns, then the time and the URL of an event. -/
def headings (v : View) : List String := v.columns.map Column.name ++ ["Timestamp", "URL"]

/-- Some column is named as the time or the URL of an event, but for case. -/
def NamesEvent (v : View) : Prop := ∃ c ∈ v.columns, c.name = "timestamp" ∨ c.name = "url"

theorem lower_names (hvalid : v.validate = .ok ()) (hkeys : ∀ k ∈ v.references, k.Valid) :
    ∀ c ∈ v.columns, Key.lower c.name = c.name := fun c hc =>
  Column.lower_name (hkeys c.pipe (List.mem_map_of_mem hc)).name
    (aliases_of_validate hvalid c hc)

theorem map_lower_headings (hlower : ∀ c ∈ v.columns, Key.lower c.name = c.name) :
    v.headings.map Key.lower = v.columns.map Column.name ++ ["timestamp", "url"] := by
  rw [headings, List.map_append, List.map_map]
  exact congrArg (· ++ _) (List.map_congr_left hlower)

/-- The headings are distinct unless a column is named as the time or the URL. -/
theorem nodup_headings_iff (hlower : ∀ c ∈ v.columns, Key.lower c.name = c.name)
    (hnames : (v.columns.map Column.name).Nodup) :
    (v.headings.map Key.lower).Nodup ↔ ¬ v.NamesEvent := by
  rw [map_lower_headings hlower, List.nodup_append]
  constructor
  · rintro ⟨-, -, hdistinct⟩ ⟨c, hc, hname⟩
    exact hdistinct c.name (List.mem_map_of_mem hc) c.name (by simpa using hname) rfl
  · refine fun hnot => ⟨hnames, by decide, fun a ha b hb => ?_⟩
    rintro rfl
    obtain ⟨c, hc, rfl⟩ := List.mem_map.1 ha
    exact hnot ⟨c, hc, by simpa using hb⟩

end View

/-! ## What is selected -/

namespace Sql

variable {points : Points} {v : View}

/-- The item of a query is shown under the heading. -/
inductive Shows : String → String → Prop
  | column (value heading : String) : Shows (value ++ ") AS " ++ quoteName heading) heading
  | event (heading : String) : Shows ("e." ++ heading) heading

theorem selectColumns_shows {columns : List Column} (i : Nat)
    (h : ∀ c ∈ columns, c.pipe ∈ points ∧ c.pipe.isQualified = true) :
    ∃ selected, selectColumns points i columns = .ok selected ∧
      List.Forall₂ Shows (selected.map (·.1)) (columns.map Column.name) := by
  induction columns generalizing i with
  | nil => exact ⟨[], rfl, .nil⟩
  | cons c columns ih =>
    obtain ⟨⟨hpoint, hq⟩, hrest⟩ := List.forall_mem_cons.1 h
    obtain ⟨point, hpoint⟩ := Lookup.exists_of_mem hpoint
    obtain ⟨digest, hdigest⟩ := Option.isSome_iff_exists.1 hq
    obtain ⟨selected, hselected, hshows⟩ := ih (i + 1) hrest
    simp only [selectColumns, selectColumn, hpoint, hdigest, hselected, Result.ok_bind]
    exact ⟨_, rfl, .cons (.column _ c.name) hshows⟩

/-- The first statement for a view makes its SQL view: it selects one item for each heading. -/
def Selects (u : Uuid) (v : View) (points : Points) : Prop :=
  ∃ items joins rest, createView u v points = .ok
    (("CREATE VIEW IF NOT EXISTS " ++ viewName u ++ " AS SELECT\n    "
      ++ String.intercalate ",\n    " items ++ "\nFROM TriggerEvents e\n" ++ joins
      ++ "\nORDER BY e.ID;") :: rest) ∧ List.Forall₂ Shows items v.headings

theorem createView_selects (u : Uuid) (halias : ∀ a, v.aliasName = some a → View.isIdentifier a = true)
    (h : ∀ c ∈ v.columns, c.pipe ∈ points ∧ c.pipe.isQualified = true) : Selects u v points := by
  obtain ⟨selected, hselected, hshows⟩ := selectColumns_shows 0 h
  have hitems : List.Forall₂ Shows (selected.map (·.1) ++ ["e.Timestamp", "e.URL"]) v.headings :=
    List.rel_append hshows (.cons (.event "Timestamp") (.cons (.event "URL") .nil))
  refine ⟨_, String.intercalate "\n" (selected.map (·.2)), ?_, ?_, hitems⟩
  · exact (v.aliasName.map fun a =>
      "CREATE VIEW " ++ quoteName a ++ " AS SELECT * FROM " ++ viewName u ++ ";").toList
  cases ha : v.aliasName with
  | none =>
    simp only [createView, hselected, ha, Result.ok_bind]
    rfl
  | some a =>
    simp only [createView, hselected, ha, halias a ha, Result.ok_bind]
    rfl

end Sql

/-! ## Row objects -/

namespace Database

variable {cs : List Change} {row : ViewRow} {v : View}

/-- A row object of a view: an entry for each column, and behind them the time and the URL of an
event, all under distinct names. The last two are named so where no column is. -/
structure Headed (v : View) (fields : List (String × Json)) : Prop where
  names : fields.map (·.1) = v.columns.map Column.name ++
    [freshName (v.columns.map Column.name) "Timestamp", freshName (v.columns.map Column.name) "URL"]
  distinct : (fields.map fun f => Key.lower f.1).Nodup
  time : "Timestamp" ∈ fields.map (·.1) ↔ ∀ c ∈ v.columns, c.name ≠ "timestamp"
  url : "URL" ∈ fields.map (·.1) ↔ ∀ c ∈ v.columns, c.name ≠ "url"

/-- The rows of a stored view are its columns at every event. -/
theorem viewRowsJson_ofChanges (hread : ∀ c ∈ cs, c.AsRead) (hrow : row ∈ (ofChanges cs).views)
    (hv : row.view = .ok v) : ∃ columns, List.Forall₂ (ofChanges cs).MadeFor v.columns columns ∧
      (ofChanges cs).viewRowsJson row.uuid =
        if joinLimit ≤ v.columns.length then .error (.internal "at most 64 tables in a join")
        else .ok ((ofChanges cs).events.map fun e =>
          .obj ((eventRow columns e).map fun (name, v) => (name, v.toJson))) := by
  have hq := soundSqlViews_ofChanges hread
  have hevents : ∀ e ∈ (ofChanges cs).events, (e.results.map (·.1)).Nodup ∧
      ∀ k, (e.valueOf k).isOf ((ofChanges cs).pointOf k) = true := fun e he => by
    obtain ⟨report, -, -, -, plan, r, -, hresults, hkeeps⟩ := reported_ofChanges hread e he
    exact ⟨hresults ▸ hkeeps.keys, fun k => (hkeeps.showsReport hresults k).2⟩
  obtain ⟨columns, hmade, hrows⟩ := hq.viewRows_eq (sound_ofChanges hread) hrow hv
    (fun e he => (hevents e he).1) fun e he => (hevents e he).2
  refine ⟨columns, hmade, ?_⟩
  rw [viewRowsJson_eq hq.uuids hrow hv, hrows]
  split
  · rfl
  · simp only [Except.map, List.map_map]
    rfl

section Fresh

variable {names : List String} (hident : ∀ n ∈ names, View.isIdentifier n = true)
include hident

theorem freshName_cases (name : String) :
    (Key.lower name ∉ names ∧ freshName names name = name) ∨
      (Key.lower name ∈ names ∧ freshName names name = name ++ ":1") := by
  by_cases h : Key.lower name ∈ names
  · refine .inr ⟨h, if_pos (List.any_eq_true.2 ⟨_, h, ?_⟩)⟩
    rw [Key.lower_lower, beq_self_eq_true]
  · refine .inl ⟨h, freshName_eq fun n hn => ?_⟩
    rw [View.lower_of_isIdentifier (hident n hn)]
    rintro rfl
    exact h hn

theorem lower_freshName_not_mem {name : String}
    (hchanged : View.isIdentifier (Key.lower (name ++ ":1")) = false) :
    Key.lower (freshName names name) ∉ names := by
  obtain ⟨hnew, heq⟩ | ⟨-, heq⟩ := freshName_cases hident name
  · rwa [heq]
  · rw [heq]
    exact fun h => Bool.false_ne_true (hchanged.symm.trans (hident _ h))

theorem nodup_fresh (hnames : names.Nodup) :
    ((names ++ [freshName names "Timestamp", freshName names "URL"]).map Key.lower).Nodup := by
  have hlower : names.map Key.lower = names :=
    (List.map_congr_left fun n hn => View.lower_of_isIdentifier (hident n hn)).trans (List.map_id' names)
  have htwo : Key.lower (freshName names "Timestamp") ≠ Key.lower (freshName names "URL") := by
    obtain ⟨-, htime⟩ | ⟨-, htime⟩ := freshName_cases hident "Timestamp" <;>
      obtain ⟨-, hurl⟩ | ⟨-, hurl⟩ := freshName_cases hident "URL" <;> rw [htime, hurl] <;> decide
  rw [List.map_append, hlower, List.nodup_append]
  refine ⟨hnames, by simpa using htwo, ?_⟩
  rintro n hn _ hm rfl
  obtain rfl | rfl : n = Key.lower (freshName names "Timestamp") ∨ n = Key.lower (freshName names "URL") := by
    simpa using hm
  · exact lower_freshName_not_mem hident (by decide) hn
  · exact lower_freshName_not_mem hident (by decide) hn

/-- The time and the URL have their own names where no column has them. -/
theorem mem_fresh : ("Timestamp" ∈ names ++ [freshName names "Timestamp", freshName names "URL"] ↔
      "timestamp" ∉ names) ∧
    ("URL" ∈ names ++ [freshName names "Timestamp", freshName names "URL"] ↔ "url" ∉ names) := by
  have htime : Key.lower "Timestamp" = "timestamp" := by decide
  have hurl : Key.lower "URL" = "url" := by decide
  have hcapital : "Timestamp" ∉ names ∧ "URL" ∉ names :=
    ⟨fun h => absurd (hident _ h) (by decide), fun h => absurd (hident _ h) (by decide)⟩
  have ht := freshName_cases hident "Timestamp"
  have hu := freshName_cases hident "URL"
  rw [htime] at ht
  rw [hurl] at hu
  simp only [List.mem_append, hcapital, false_or, List.mem_cons, List.not_mem_nil, or_false]
  obtain ⟨ht, heqt⟩ | ⟨ht, heqt⟩ := ht <;> obtain ⟨hu, hequ⟩ | ⟨hu, hequ⟩ := hu <;>
    simp [heqt, hequ, ht, hu]

end Fresh

theorem headed_eventRow {db : Database} {columns : List Sql.CollectionColumn}
    (hmade : List.Forall₂ db.MadeFor v.columns columns) (hnames : (v.columns.map Column.name).Nodup)
    (hident : ∀ c ∈ v.columns, View.isIdentifier c.name = true) (e : Event) :
    Headed v ((eventRow columns e).map fun (name, v) => (name, v.toJson)) := by
  have hsame : columns.map (·.name) = v.columns.map Column.name :=
    Result.map_eq_of_forall₂ hmade.flip fun _ _ h => h.name
  have hfields : ((eventRow columns e).map fun (name, v) => (name, v.toJson)).map (·.1) =
      v.columns.map Column.name ++ [freshName (v.columns.map Column.name) "Timestamp",
        freshName (v.columns.map Column.name) "URL"] := by
    rw [List.map_map, eventRow, ← hsame, List.map_append, List.map_map]
    rfl
  have hidents : ∀ n ∈ v.columns.map Column.name, View.isIdentifier n = true :=
    List.forall_mem_map.2 hident
  obtain ⟨htime, hurl⟩ := mem_fresh hidents
  refine ⟨hfields, ?_, ?_, ?_⟩
  · have hdistinct := nodup_fresh hidents hnames
    rwa [← hfields, List.map_map] at hdistinct
  · rw [hfields, htime]
    simp
  · rw [hfields, hurl]
    simp

theorem isIdentifier_names (hread : ∀ c ∈ cs, c.AsRead) (hrow : row ∈ (ofChanges cs).views)
    (hv : row.view = .ok v) : ∀ c ∈ v.columns, View.isIdentifier c.name = true := fun c hc => by
  have hs := sound_ofChanges hread
  obtain ⟨pipe, hpipe, hkey⟩ := (hs.linked_of_column hrow hv hc).2
  have hvalid := (hs.pipes.each pipe hpipe).valid
  rw [hkey] at hvalid
  exact Column.isIdentifier_name hvalid.name ((soundAliases_ofChanges hread).columns row hrow v hv c hc)

/-- For every valid view with qualified columns the statement of its SQL view selects one item for
each heading, and the headings are distinct, compared without case, unless a column is named as the
time or the URL of an event. In every row object of a stored view all names are distinct: one for each
column, and two more, which are those of the time and the URL just where no column is named so. -/
theorem headings_distinct_unless_named (cs : List Change) (hread : ∀ c ∈ cs, c.AsRead) :
    (∀ (v : View) (u : Uuid) (points : Sql.Points), v.validate = .ok () →
      (∀ k ∈ v.references, k.isQualified = true ∧ k.Valid ∧ k ∈ points) →
        Sql.Selects u v points ∧ ((v.headings.map Key.lower).Nodup ↔ ¬ v.NamesEvent)) ∧
    ∀ row ∈ (ofChanges cs).views, ∀ v, row.view = .ok v →
      (v.columns.length < joinLimit → ∃ rows, (ofChanges cs).viewRowsJson row.uuid = .ok rows ∧
        rows.length = (ofChanges cs).events.length) ∧
      ∀ rows, (ofChanges cs).viewRowsJson row.uuid = .ok rows → ∀ shown ∈ rows,
        ∃ fields, shown = .obj fields ∧ Headed v fields := by
  refine ⟨fun v u points hvalid hkeys => ⟨?_, ?_⟩, fun row hrow v hv => ?_⟩
  · refine Sql.createView_selects u (fun a ha => ?_) fun c hc => ?_
    · exact View.isIdentifier_of_validateAlias (View.alias_of_validate hvalid ha)
    · obtain ⟨hq, -, hpoint⟩ := hkeys c.pipe (List.mem_map_of_mem hc)
      exact ⟨hpoint, hq⟩
  · exact View.nodup_headings_iff (View.lower_names hvalid fun k hk => (hkeys k hk).2.1)
      (View.names_of_validate hvalid)
  · obtain ⟨columns, hmade, hrows⟩ := viewRowsJson_ofChanges hread hrow hv
    rw [hrows]
    constructor
    · intro hfew
      rw [if_neg (Nat.not_le.2 hfew)]
      exact ⟨_, rfl, List.length_map _⟩
    · intro rows hsome shown hshown
      split at hsome
      · cases hsome
      · cases hsome
        obtain ⟨e, -, rfl⟩ := List.mem_map.1 hshown
        obtain ⟨w, hw, hnames, -⟩ := (sound_ofChanges hread).views.each row hrow
        cases hv.symm.trans hw
        exact ⟨_, rfl, headed_eventRow hmade hnames (isIdentifier_names hread hrow hv) e⟩

/-- A second view of the title of a page, which names it as the time, and a report on the page. -/
def titleAsTime : List Change :=
  titleInView ++ [planOfPage] ++
    [.createView ⟨4⟩ { columns := [{ aliasName := some "timestamp", pipe := .bare "title" }] }] ++
    [.exchange "" twoTitles]

/-- The view is valid, but its headings are not distinct: the row shows the time under another name. -/
theorem title_hides_time : (∀ c ∈ titleAsTime, c.AsRead) ∧
    ∃ row ∈ (ofChanges titleAsTime).views, ∃ v, row.view = .ok v ∧ v.validate = .ok () ∧
      (∃ points, (∀ k ∈ v.references, k.isQualified = true ∧ k.Valid ∧ k ∈ points) ∧
        Sql.Selects row.uuid v points ∧ ¬ (v.headings.map Key.lower).Nodup) ∧
      ∃ fields, (ofChanges titleAsTime).viewRowsJson row.uuid = .ok [.obj fields] ∧ Headed v fields ∧
        "Timestamp" ∉ fields.map (·.1) := by
  have hread : ∀ c ∈ titleAsTime, c.AsRead := by
    simp only [titleAsTime, titleInView, List.cons_append, List.nil_append, List.mem_cons,
      List.not_mem_nil, or_false]
    rintro c (rfl | rfl | rfl | rfl | rfl | rfl)
    · exact List.forall_mem_singleton.2 (Action.readable_ofKind _)
    all_goals trivial
  have hrun : (titlePlanned.createView ⟨4⟩ { columns :=
      [{ aliasName := some "timestamp", pipe := .bare "title" }] }).toOption.any (fun made =>
      (made.1.exchange "" twoTitles).toOption.any fun a => a.1.events.length == 1 &&
        a.1.views.any fun row => row.view.toOption.any fun v => decide (v.validate.toOption = some () ∧
          v.references = [plannedTitle.name] ∧ v.columns.length < joinLimit ∧
            ∃ c ∈ v.columns, c.name = "timestamp")) = true := by decide +kernel
  rw [← titlePlanned_eq] at hrun
  obtain ⟨⟨made, stored⟩, hmade, hrun⟩ := Result.exists_ok_of_any hrun
  obtain ⟨⟨next, receipt⟩, hnext, hrun⟩ := Result.exists_ok_of_any hrun
  have hrun' : ofChanges titleAsTime = next := by
    rw [titleAsTime, ofChanges_concat, ofChanges_concat, Change.after, Change.after, Change.apply, hmade,
      Change.apply, hnext]
  obtain ⟨hlength, hviews⟩ := Bool.and_eq_true_iff.1 hrun
  obtain ⟨row, hrow, hview⟩ := List.any_eq_true.1 hviews
  obtain ⟨v, hv, hdecided⟩ := Result.exists_ok_of_any hview
  obtain ⟨hvalid, hreferences, hfew, c, hc, hname⟩ := of_decide_eq_true hdecided
  rw [Result.toOption_eq_some] at hvalid
  rw [← hrun'] at hrow hlength
  let points : Sql.Points := (∅ : Sql.Points).insert plannedTitle.name {}
  have hkeys : ∀ k ∈ v.references, k.isQualified = true ∧ k.Valid ∧ k ∈ points := by
    rw [hreferences]
    refine List.forall_mem_singleton.2 ⟨rfl, Resource.valid_key ?_, Std.ExtTreeMap.mem_insert_self⟩
    exact Result.toOption_eq_some.1 (by decide +kernel)
  obtain ⟨hheadings, hrows⟩ := headings_distinct_unless_named titleAsTime hread
  obtain ⟨hselects, hnodup⟩ := hheadings v row.uuid points hvalid hkeys
  obtain ⟨hsome, hheaded⟩ := hrows row hrow v hv
  obtain ⟨rows, hrowsJson, hcount⟩ := hsome hfew
  obtain ⟨shown, rfl⟩ := List.length_eq_one_iff.1 (hcount.trans (by simpa using hlength))
  obtain ⟨fields, rfl, hfields⟩ := hheaded _ hrowsJson shown (by simp)
  refine ⟨hread, row, hrow, v, hv, hvalid, ⟨points, hkeys, hselects, fun h => ?_⟩, fields, hrowsJson,
    hfields, fun h => hfields.time.1 h c hc hname⟩
  exact hnodup.1 h ⟨c, hc, .inl hname⟩

end Database
end PagePipes
