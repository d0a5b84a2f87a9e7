import PagePipes.Proofs.Database.History

set_option autoImplicit false

/-!
# What no change takes back

Events, the pipes of a plan and the rows of a table are only added to. A view that is removed leaves
its table behind, and a pipe that a plan names is not removed. So whatever was recorded at some time
can be read at every later time, and reads the same.
-/
namespace PagePipes.Database

variable {db next last : Database} {cs later : List Change} {c : Change} {row s : PipeRow} {e : Event}

/-! ## Records -/

/-- A later database has all that was recorded in an earlier one, at the same places: the events with
their results, the plans with their pipes, which at most get finished, and the rows of the tables. -/
structure Outlives (next db : Database) : Prop where
  events : db.events <+: next.events
  plans : ∀ (n : Nat) (p : PlanRow), db.plans[n]? = some p →
    ∃ q, next.plans[n]? = some q ∧ p.Continues q
  tables : ∀ name columns rows, .table name columns rows ∈ db.objects →
    ∃ added, .table name columns (rows ++ added) ∈ next.objects

theorem Outlives.refl (db : Database) : db.Outlives db where
  events := List.prefix_rfl
  plans n p hp := ⟨p, hp, .refl p⟩
  tables name columns rows h := ⟨[], by rwa [List.append_nil]⟩

theorem Outlives.trans (h : next.Outlives db) (h' : last.Outlives next) : last.Outlives db where
  events := h.events.trans h'.events
  plans n p hp := by
    obtain ⟨q, hq, hpq⟩ := h.plans n p hp
    obtain ⟨r, hr, hqr⟩ := h'.plans n q hq
    exact ⟨r, hr, hpq.trans hqr⟩
  tables name columns rows hmem := by
    obtain ⟨added, hnext⟩ := h.tables name columns rows hmem
    obtain ⟨more, hlast⟩ := h'.tables name columns _ hnext
    exact ⟨added ++ more, by rwa [← List.append_assoc]⟩

theorem Step.events (h : Step db next) : db.events <+: next.events := by
  obtain ⟨c, hc⟩ := h.leads
  obtain ⟨-, hevents⟩ | ⟨u, request, rfl⟩ | ⟨time, report, rfl⟩ := records_of_leads hc
  · rw [hevents]
  · cases hc with
    | trigger h =>
      obtain ⟨plans, rfl⟩ := trigger_frame h
      exact List.prefix_rfl
  · cases hc with
    | exchange h =>
      obtain ⟨plan, targets, recorded, all, objects, n, -, -, -, -, -, -, rfl⟩ := exchange_eq_ok h
      exact List.prefix_append _ _

theorem PlansStep.continues_at {stored : Key → Prop} {plans others : List PlanRow}
    (h : PlansStep stored plans others) {n : Nat} {p : PlanRow} (hp : plans[n]? = some p) :
    ∃ q, others[n]? = some q ∧ p.Continues q := by
  obtain ⟨kept, added, rfl, hkept⟩ := h.continues
  obtain ⟨hn, rfl⟩ := List.getElem?_eq_some_iff.1 hp
  have hlength := hkept.length_eq
  refine ⟨kept[n], ?_, List.forall₂_iff_get.1 hkept |>.2 n hn (hlength ▸ hn)⟩
  rw [List.getElem?_append_left (hlength ▸ hn), List.getElem?_eq_getElem]

/-- The rows of a table stay: a view takes its SQL views away, but not its table. -/
theorem SchemaStep.tables (h : SchemaStep db next) {name : String}
    {columns : List Sql.CollectionColumn} {rows : List (List Sql.Value)}
    (hmem : .table name columns rows ∈ db.objects) :
    ∃ added, .table name columns (rows ++ added) ∈ next.objects := by
  cases h with
  | same _ _ hobjects =>
    obtain ⟨o, ho, hfilled⟩ := Result.exists_of_forall₂ hobjects hmem
    cases hfilled with
    | same => exact ⟨[], by rwa [List.append_nil]⟩
    | grown _ _ _ added => exact ⟨added, ho⟩
  | stored _ h _ _ _ hobjects =>
    obtain ⟨-, -, -, -, points, c, tables, -, -, -, rfl⟩ := insertView_eq_ok h
    refine ⟨[], ?_⟩
    rw [hobjects, List.append_nil, List.append_assoc]
    exact List.mem_append_left _ hmem
  | removed _ _ _ _ hobjects =>
    refine ⟨[], ?_⟩
    rw [hobjects, List.append_nil]
    exact List.mem_filter.2 ⟨hmem, rfl⟩

theorem Step.outlives (h : Step db next) : next.Outlives db where
  events := h.events
  plans _ _ := h.plans.continues_at
  tables _ _ _ := h.schema.tables

theorem Steps.outlives (h : Steps db next) : next.Outlives db := by
  induction h with
  | refl => exact .refl db
  | tail _ hlast ih => exact ih.trans hlast.outlives

/-! ## Specs of pipes -/

/-- A pipe that is stored before a change and after it has the same spec. An index takes no pipe
away while it is stored, so its steps need not be looked at one by one. -/
theorem same_after (hc : c.AsRead) (hrow : row ∈ db.pipes)
    (hstored : (Change.after db c).Stores row.key) : ∃ s ∈ (Change.after db c).pipes, row.Same s := by
  obtain hsame | hstep | ⟨us, rs, ix, keys, ids, -, -, hall⟩ := @after_cases_of_asRead db c hc
  · rw [hsame]
    exact ⟨row, hrow, rfl, rfl⟩
  · refine (hstep.pipes.kept_or_removed hrow).resolve_right fun hremoved => ?_
    obtain ⟨s, hs, hkey⟩ := hstored
    exact hremoved.2 s hs hkey
  · exact ⟨row, (rows_of_createAll hall).1 hrow, rfl, rfl⟩

theorem same_ofChanges (hlater : ∀ c ∈ later, c.AsRead) (hrow : row ∈ (ofChanges cs).pipes)
    (hstored : ∀ between, between <+: later → (ofChanges (cs ++ between)).Stores row.key) :
    ∃ s ∈ (ofChanges (cs ++ later)).pipes, row.Same s := by
  induction later using List.reverseRecOn with
  | nil => exact ⟨row, by rwa [List.append_nil], rfl, rfl⟩
  | append_singleton later c ih =>
    obtain ⟨s, hs, hsame⟩ := ih (fun d hd => hlater d (List.mem_append_left _ hd))
      fun between hbetween => hstored between (hbetween.trans (List.prefix_append _ _))
    have hlast := hstored _ List.prefix_rfl
    rw [← List.append_assoc, ofChanges_concat] at hlast ⊢
    obtain ⟨t, ht, hst⟩ := same_after (hlater c (by simp)) hs (hsame.1.symm ▸ hlast)
    exact ⟨t, ht, hst.1.trans hsame.1, hst.2.trans hsame.2⟩

/-! ## Results of events -/

/-- The results of an event are of pipes that its plan has, and of each at most one. -/
structure OfPlan (db : Database) (e : Event) (plan : PlanRow) : Prop where
  stored : db.planRow? e.plan = some plan
  planned : ∀ r ∈ e.results, ∃ p ∈ plan.pipes, p.name = r.1 ∧ db.Stores r.1
  once : (e.results.map (·.1)).Nodup

theorem Reported.ofPlan {report : Report} (h : Reported db report e) (hp : SoundPlans db) :
    ∃ plan, db.OfPlan e plan := by
  obtain ⟨-, hplan, plan, recorded, hrow, hresults, hkeeps⟩ := h
  refine ⟨plan, hplan ▸ hrow, fun r hr => ?_, hresults ▸ hkeeps.keys⟩
  rw [hresults] at hr
  have hvalue := (Lookup.lookup_eq_some_iff_mem hkeeps.keys).2 hr
  rw [hkeeps.first] at hvalue
  obtain ⟨j, hj, -⟩ := Option.map_eq_some_iff.1 hvalue
  obtain ⟨before, after, hsplit, -⟩ := List.lookup_eq_some_iff.1 hj
  obtain ⟨p, hmem, hname⟩ := planned_of_reportsOf (hsplit ▸ List.mem_append_right before List.mem_cons_self)
  exact ⟨p, hmem, hname, hname ▸ hp.stored plan (mem_of_planRow? hrow).1 p hmem⟩

/-- What was recorded after some changes is there after all later ones; so is the spec of a pipe that
stays stored. The results of each event are of pipes that its plan has, of each at most one. -/
theorem history_outlives_changes (hcs : ∀ c ∈ cs, c.AsRead) (hlater : ∀ c ∈ later, c.AsRead) :
    (ofChanges (cs ++ later)).Outlives (ofChanges cs) ∧
    (∀ row ∈ (ofChanges cs).pipes, ∀ s ∈ (ofChanges (cs ++ later)).pipes, s.key = row.key →
      (∀ between, between <+: later → (ofChanges (cs ++ between)).Stores row.key) →
      s.spec = row.spec) ∧
    ∀ e ∈ (ofChanges cs).events, ∃ plan, (ofChanges cs).OfPlan e plan := by
  refine ⟨(steps_ofChanges hlater).outlives, fun row hrow s hs hkey hstored => ?_, fun e he => ?_⟩
  · obtain ⟨t, ht, htkey, htspec⟩ := same_ofChanges hlater hrow hstored
    have hall : ∀ c ∈ cs ++ later, c.AsRead := List.forall_mem_append.2 ⟨hcs, hlater⟩
    have heq : s = t := List.inj_on_of_nodup_map (sound_ofChanges hall).pipes.keys hs ht
      (hkey.trans htkey.symm)
    rw [heq, htspec]
  · obtain ⟨report, -, hreported⟩ := reported_ofChanges hcs e he
    exact hreported.ofPlan (soundPlans_ofChanges hcs)

/-- The title is to be removed after it was reported, which is turned down. -/
theorem reported_title_outlives :
    (∀ c ∈ titleReported, c.AsRead) ∧ (∀ c ∈ [Change.deleteResource (.bare "title")], c.AsRead) ∧
    (ofChanges (titleReported ++ [.deleteResource (.bare "title")])).Outlives (ofChanges titleReported) ∧
    (∃ row s, (ofChanges titleReported).pipes = [row] ∧
      (ofChanges (titleReported ++ [.deleteResource (.bare "title")])).pipes = [s] ∧ s.spec = row.spec) ∧
    ∃ e plan, (ofChanges titleReported).events = [e] ∧
      e.results = [(plannedTitle.name, .text "first")] ∧ (ofChanges titleReported).OfPlan e plan := by
  have hlater : ∀ c ∈ [Change.deleteResource (.bare "title")], c.AsRead := List.forall_mem_singleton.2 trivial
  have hrun : let before := Change.after titlePlanned (.exchange "" twoTitles)
      let after := Change.after before (.deleteResource (.bare "title"))
      before.events.map (·.results) = [[(plannedTitle.name, .text "first")]] ∧
        before.pipes.map (·.key) = [plannedTitle.name] ∧
        after.pipes.map (·.key) = [plannedTitle.name] := by
    decide +kernel
  dsimp only at hrun
  rw [← titlePlanned_eq, ← ofChanges_concat, ← titleReported, ← ofChanges_concat] at hrun
  obtain ⟨hevents, hbefore, hafter⟩ := hrun
  obtain ⟨e, he, hresults⟩ := List.map_eq_singleton_iff.1 hevents
  obtain ⟨row, hrow, hkey⟩ := List.map_eq_singleton_iff.1 hbefore
  obtain ⟨s, hs, hskey⟩ := List.map_eq_singleton_iff.1 hafter
  obtain ⟨houtlives, hspecs, hplans⟩ := history_outlives_changes asRead_titleReported hlater
  have hstored : ∀ between, between <+: [Change.deleteResource (.bare "title")] →
      (ofChanges (titleReported ++ between)).Stores row.key := by
    intro between hbetween
    obtain rfl | ⟨rest, rfl, hrest⟩ := List.prefix_cons_iff.1 hbetween
    · rw [List.append_nil]
      exact ⟨row, by simp [hrow], rfl⟩
    · rw [List.prefix_nil.1 hrest]
      exact ⟨s, by simp [hs], hskey.trans hkey.symm⟩
  obtain ⟨plan, hplan⟩ := hplans e (by simp [he])
  exact ⟨asRead_titleReported, hlater, houtlives,
    ⟨row, s, hrow, hs, hspecs row (by simp [hrow]) s (by simp [hs]) (hskey.trans hkey.symm) hstored⟩,
    e, plan, he, hresults, hplan⟩

end PagePipes.Database
