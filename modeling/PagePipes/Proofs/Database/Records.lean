import PagePipes.Proofs.Database.Recording
import PagePipes.Proofs.Database.Rows

set_option autoImplicit false

/-!
# Plans and events along steps

A plan that is stored stays, with its text and its pipes, and so do the events that reports leave
behind. The pipes of a plan cannot be removed, so what a report said of them can be read off its
plan at any later time.
-/
namespace PagePipes

/-- A row of a plan as it goes on: it may only be finished. -/
structure PlanRow.Continues (p q : PlanRow) : Prop where
  uuid : q.uuid = p.uuid
  text : q.text = p.text
  pipes : q.pipes = p.pipes
  finished : p.finished = true → q.finished = true

theorem PlanRow.Continues.eq {p q : PlanRow} (h : p.Continues q) : q = { p with finished := q.finished } := by
  obtain ⟨u, text, pipes, finished⟩ := q
  obtain ⟨rfl, rfl, rfl, -⟩ := h
  rfl

theorem PlanRow.Continues.refl (p : PlanRow) : p.Continues p := ⟨rfl, rfl, rfl, id⟩

theorem PlanRow.Continues.trans {p q r : PlanRow} (h : p.Continues q) (h' : q.Continues r) :
    p.Continues r :=
  ⟨h'.uuid.trans h.uuid, h'.text.trans h.text, h'.pipes.trans h.pipes, h'.finished ∘ h.finished⟩

/-- Whether a report means the pipe by a key: its own key or that of its exchange. -/
def PlannedPipe.answers (p : PlannedPipe) (k : Key) : Bool := p.name == k || p.exchange == k

theorem Planner.planned_nodup (s : Planner) : (s.planned.map (·.name)).Nodup := by
  rw [planned, List.map_map]
  have := Std.ExtTreeMap.nodup_keys (t := s.pipes)
  rwa [← Std.ExtTreeMap.map_fst_toList_eq_keys] at this

namespace Database

variable {db next : Database} {u : Uuid} {k : Key} {p : Pipe} {plan : PlanRow} {e : Event}

/-! ## What a step makes of plans and events -/

inductive PlansStep (stored : Key → Prop) (plans : List PlanRow) : List PlanRow → Prop
  | same : PlansStep stored plans plans
  | planned {u : Uuid} {text : String} {pipes : List PlannedPipe}
      (hfresh : ∀ row ∈ plans, row.uuid ≠ u) (hstored : ∀ p ∈ pipes, stored p.name)
      (hnames : (pipes.map (·.name)).Nodup) :
      PlansStep stored plans (plans ++ [⟨u, text, pipes, false⟩])
  | finished (u : Uuid) :
      PlansStep stored plans
        (plans.map fun p => if p.uuid = u then { p with finished := true } else p)

theorem planned_nodup_of_outcome {source : PipeSource} {url : Url} {o : Trigger.Outcome}
    (h : Trigger.outcome source url = .ok o) : (o.planned.map (·.name)).Nodup := by
  obtain ⟨ms, -, h⟩ := Result.bind_eq_ok.1 h
  obtain ⟨planner, -, h⟩ := Result.bind_eq_ok.1 h
  cases Result.pure_eq_ok.1 h
  exact planner.planned_nodup

theorem records_createResource {r : Resource} (h : db.createResource u r = .ok (next, k)) :
    next.plans = db.plans ∧ next.events = db.events := by
  obtain ⟨-, q, -, -, ⟨rfl, -⟩ | ⟨-, hcreated⟩⟩ := createResource_eq_ok h
  · exact ⟨rfl, rfl⟩
  · cases hcreated with
    | @pipe p hq =>
      obtain ⟨pipes, h⟩ := insertPipe_frame db q.key p
      rw [h]
      exact ⟨rfl, rfl⟩
    | view hq hv =>
      obtain ⟨views, viewPipes, objects, rfl⟩ := insertView_frame hv
      exact ⟨rfl, rfl⟩
    | rule hq hstored hlinks => exact ⟨rfl, rfl⟩

theorem records_createAll {ix : Index} {fresh : Nat → Uuid} {n : Nat} {keys ids : List Key}
    (h : createAll ix fresh n db keys = .ok (next, ids)) :
    next.plans = db.plans ∧ next.events = db.events := by
  refine createAll_keeps (P := fun d => d.plans = db.plans ∧ d.events = db.events) ⟨rfl, rfl⟩
    (fun _ _ _ _ _ _ _ _ hsame h => ?_) h
  obtain ⟨hplans, hevents⟩ := records_createResource h
  exact ⟨hplans.trans hsame.1, hevents.trans hsame.2⟩

/-- Only triggers and exchanges touch plans and events. -/
theorem records_of_leads {c : Change} (h : c.Leads db next) :
    (next.plans = db.plans ∧ next.events = db.events) ∨ (∃ u request, c = .trigger u request) ∨
      ∃ time report, c = .exchange time report := by
  cases h with
  | createResource h => exact .inl (records_createResource h)
  | deleteResource h =>
    obtain ⟨row, -, hdeleted⟩ := deleteResource_eq_ok h
    cases hdeleted <;> exact .inl ⟨rfl, rfl⟩
  | putIndex hix h =>
    obtain ⟨q, -, -, hall⟩ := putIndex_eq_ok.1 h
    exact .inl (records_createAll hall)
  | setDisabled h =>
    obtain ⟨-, rfl⟩ := setDisabled_eq_ok.1 h
    exact .inl ⟨rfl, rfl⟩
  | createRule h =>
    obtain ⟨conditions, links, rfl⟩ := createRule_frame h
    exact .inl ⟨rfl, rfl⟩
  | deleteRule h =>
    obtain ⟨conditions, links, rfl⟩ := deleteRule_frame h
    exact .inl ⟨rfl, rfl⟩
  | createView h =>
    obtain ⟨views, viewPipes, objects, rfl⟩ := createView_frame h
    exact .inl ⟨rfl, rfl⟩
  | trigger h => exact .inr (.inl ⟨_, _, rfl⟩)
  | exchange h => exact .inr (.inr ⟨_, _, rfl⟩)

theorem Step.plans (h : Step db next) : PlansStep next.Stores db.plans next.plans := by
  obtain ⟨c, hc⟩ := h.leads
  obtain ⟨hplans, -⟩ | ⟨u, request, rfl⟩ | ⟨time, report, rfl⟩ := records_of_leads hc
  · rw [hplans]
    exact .same
  · cases hc with
    | trigger h =>
      obtain ⟨url, o, -, ho, -, hfresh, hstored, rfl⟩ := trigger_eq_ok h
      exact .planned hfresh hstored (planned_nodup_of_outcome ho)
  · cases hc with
    | exchange h =>
      obtain ⟨plan, targets, recorded, all, objects, n, -, -, -, -, -, -, rfl⟩ := exchange_eq_ok h
      exact .finished _

/-! ## Plans -/

structure SoundPlans (db : Database) : Prop where
  uuids : (db.plans.map (·.uuid)).Nodup
  stored : ∀ plan ∈ db.plans, ∀ p ∈ plan.pipes, db.Stores p.name
  names : ∀ plan ∈ db.plans, (plan.pipes.map (·.name)).Nodup

theorem continues_finish (u : Uuid) (p : PlanRow) :
    p.Continues (if p.uuid = u then { p with finished := true } else p) := by
  split
  · exact ⟨rfl, rfl, rfl, fun _ => rfl⟩
  · exact .refl p

/-- The plans that are there go on, and new ones come after them. -/
theorem PlansStep.continues {stored : Key → Prop} {plans others : List PlanRow}
    (h : PlansStep stored plans others) :
    ∃ kept added, others = kept ++ added ∧ List.Forall₂ PlanRow.Continues plans kept := by
  cases h with
  | same => exact ⟨plans, [], by simp, List.forall₂_same.2 fun p _ => .refl p⟩
  | planned => exact ⟨plans, _, rfl, List.forall₂_same.2 fun p _ => .refl p⟩
  | finished u =>
    refine ⟨_, [], (List.append_nil _).symm, ?_⟩
    rw [List.forall₂_map_right_iff]
    exact List.forall₂_same.2 fun p _ => continues_finish u p

theorem find?_of_continues {plans kept : List PlanRow} (h : List.Forall₂ PlanRow.Continues plans kept)
    (hplan : plans.find? (·.uuid == u) = some plan) :
    ∃ q, kept.find? (·.uuid == u) = some q ∧ plan.Continues q := by
  induction h with
  | nil => cases hplan
  | @cons p q plans kept hpq _ ih =>
    rw [List.find?_cons] at hplan ⊢
    rw [hpq.uuid]
    cases hu : p.uuid == u with
    | true =>
      simp only [hu, Option.some.injEq] at hplan ⊢
      exact ⟨q, rfl, hplan ▸ hpq⟩
    | false =>
      simp only [hu] at hplan ⊢
      exact ih hplan

theorem Step.planRow? (h : Step db next) (hplan : db.planRow? u = some plan) :
    ∃ q, next.planRow? u = some q ∧ plan.Continues q := by
  obtain ⟨kept, added, hplans, hkept⟩ := h.plans.continues
  obtain ⟨q, hq, hcontinues⟩ := find?_of_continues hkept hplan
  refine ⟨q, ?_, hcontinues⟩
  rw [Database.planRow?, hplans, List.find?_append, hq, Option.some_or]

theorem Steps.planRow? (h : Steps db next) (hplan : db.planRow? u = some plan) :
    ∃ q, next.planRow? u = some q ∧ plan.Continues q := by
  induction h with
  | refl => exact ⟨plan, hplan, .refl plan⟩
  | tail _ hstep ih =>
    obtain ⟨q, hq, hcontinues⟩ := ih
    obtain ⟨r, hr, hlast⟩ := hstep.planRow? hq
    exact ⟨r, hr, hcontinues.trans hlast⟩

theorem SoundPlans.step (hp : SoundPlans db) (hs : db.Sound) (h : Step db next) :
    SoundPlans next := by
  have hstored : ∀ plan ∈ db.plans, ∀ p ∈ plan.pipes, next.Stores p.name := fun plan hplan p hmem =>
    h.stores hs (needed_of_planned hplan hmem) (hp.stored plan hplan p hmem)
  have hplans := h.plans
  generalize hnext : next.plans = plans at hplans
  cases hplans with
  | same => exact ⟨hnext ▸ hp.uuids, hnext ▸ hstored, hnext ▸ hp.names⟩
  | @planned u text pipes hfresh hnew hnames =>
    refine ⟨?_, hnext ▸ List.forall_mem_append.2 ⟨hstored, List.forall_mem_singleton.2 hnew⟩,
      hnext ▸ List.forall_mem_append.2 ⟨hp.names, List.forall_mem_singleton.2 hnames⟩⟩
    rw [hnext, List.map_append, List.map_singleton, List.nodup_append]
    refine ⟨hp.uuids, List.nodup_singleton _, fun v hv w hw => ?_⟩
    obtain ⟨row, hrow, rfl⟩ := List.mem_map.1 hv
    rw [List.mem_singleton.1 hw]
    exact hfresh row hrow
  | finished u =>
    have hsame := fun plan : PlanRow => continues_finish u plan
    refine ⟨?_, hnext ▸ List.forall_mem_map.2 fun plan hplan => ?_,
      hnext ▸ List.forall_mem_map.2 fun plan hplan => ?_⟩
    · rw [hnext, List.map_map]
      have huuid : (fun plan : PlanRow => plan.uuid) ∘
          (fun p => if p.uuid = u then { p with finished := true } else p) = (·.uuid) :=
        funext fun plan => (hsame plan).uuid
      rw [huuid]
      exact hp.uuids
    · rw [(hsame plan).pipes]
      exact hstored plan hplan
    · rw [(hsame plan).pipes]
      exact hp.names plan hplan

theorem soundPlans_ofChanges {cs : List Change} (h : ∀ c ∈ cs, c.AsRead) :
    SoundPlans (ofChanges cs) :=
  ofChanges_keeps h ⟨List.nodup_nil, by simp [empty], by simp [empty]⟩
    fun hs hp hstep => hp.step hs hstep

/-- The pipes of a plan as a report may name them. -/
def targetsOf (db : Database) (plan : PlanRow) : List Target :=
  plan.pipes.map fun p => ⟨p, db.pointOf p.name⟩

theorem SoundPlans.mapM_target (hp : SoundPlans db) (hs : db.Sound) (hplan : plan ∈ db.plans) :
    plan.pipes.mapM db.target = .ok (db.targetsOf plan) := by
  rw [Result.mapM_eq_ok, targetsOf, List.forall₂_map_right_iff, List.forall₂_same]
  intro p hmem
  obtain ⟨stored, hstored⟩ := hs.pipe_of_stores (hp.stored plan hplan p hmem)
  rw [target, hstored, Result.ok_bind, pointOf_eq hstored]
  rfl

/-- What a report says of the pipes of a plan. -/
def reportsOf (plan : PlanRow) (results : List PipeResult) : List (Key × Json) :=
  results.flatMap fun r =>
    (plan.pipes.filter (·.answers r.pipe)).map fun p => (p.name, r.result)

theorem reports_targetsOf (db : Database) (plan : PlanRow) (results : List PipeResult) :
    reports (db.targetsOf plan) results = reportsOf plan results := by
  unfold reports reportsOf targetsOf
  refine List.flatMap_congr fun r _ => ?_
  rw [List.filter_map, List.map_map]
  rfl

theorem planned_of_reportsOf {results : List PipeResult} {entry : Key × Json}
    (h : entry ∈ reportsOf plan results) : ∃ p ∈ plan.pipes, p.name = entry.1 := by
  obtain ⟨r, -, h⟩ := List.mem_flatMap.1 h
  obtain ⟨p, hp, rfl⟩ := List.mem_map.1 h
  exact ⟨p, (List.mem_filter.1 hp).1, rfl⟩

/-! ## Events -/

/-- The event holds what a report says of the pipes of its plan. -/
structure Reported (db : Database) (report : Report) (e : Event) : Prop where
  url : e.url = report.url
  plan_eq : e.plan = report.uuid
  results : ∃ plan r, db.planRow? report.uuid = some plan ∧ e.results = r.values ∧
    Recorded.Keeps db.pointOf (reportsOf plan report.results) r

theorem Recorded.Keeps.congr {point point' : Key → Point} {reports : List (Key × Json)} {r : Recorded}
    (h : Recorded.Keeps point reports r) (hsame : ∀ e ∈ reports, point' e.1 = point e.1) :
    Recorded.Keeps point' reports r where
  first k := by
    rw [h.first]
    cases hk : reports.lookup k with
    | none => rfl
    | some j =>
      obtain ⟨before, after, rfl, -⟩ := List.lookup_eq_some_iff.1 hk
      rw [hsame (k, j) (by simp)]
  last := h.last
  accepted e he := hsame e he ▸ h.accepted e he
  keys := h.keys
  all hnodup := by
    rw [h.all hnodup]
    exact List.map_congr_left fun e he => by rw [hsame e he]

/-- Events are left behind by exchanges alone. -/
theorem events_after (db : Database) (c : Change) : (Change.after db c).events = db.events ∨
    ∃ time report receipt, c = .exchange time report ∧
      db.exchange time report = .ok (Change.after db c, receipt) := by
  obtain ⟨-, hsame⟩ | hleads := Change.after_cases db c
  · exact .inl (by rw [hsame])
  · obtain ⟨-, hevents⟩ | ⟨u, request, rfl⟩ | ⟨time, report, rfl⟩ := records_of_leads hleads
    · exact .inl hevents
    · generalize Change.after db (.trigger u request) = next at hleads
      cases hleads with
      | trigger h =>
        obtain ⟨plans, rfl⟩ := trigger_frame h
        exact .inl rfl
    · generalize Change.after db (.exchange time report) = next at hleads
      cases hleads with
      | exchange h => exact .inr ⟨time, report, _, rfl, h⟩

theorem mem_of_planRow? (h : db.planRow? u = some plan) : plan ∈ db.plans ∧ plan.uuid = u :=
  ⟨List.mem_of_find?_eq_some h, by simpa using List.find?_some h⟩

theorem reported_of_exchange (hs : db.Sound) (hp : SoundPlans db) {time : String} {report : Report}
    {receipt : Receipt} (h : db.exchange time report = .ok (next, receipt)) :
    ∃ e, next.events = db.events ++ [e] ∧ e.timestamp = time ∧ Reported db report e := by
  obtain ⟨plan, targets, recorded, all, objects, n, hplan, htargets, hrecorded, -, -, -, rfl⟩ :=
    exchange_eq_ok h
  refine ⟨_, rfl, rfl, rfl, rfl, plan, recorded, hplan, rfl, ?_⟩
  cases (hp.mapM_target hs (mem_of_planRow? hplan).1).symm.trans htargets
  rw [← reports_targetsOf db]
  refine Recorded.keeps_of_addResults (fun t ht => ?_) hrecorded
  obtain ⟨p, -, rfl⟩ := List.mem_map.1 ht
  rfl

theorem Step.pointOf_eq (hs : db.Sound) (h : Step db next) (hneeded : db.Needed k)
    (hk : db.Stores k) : next.pointOf k = db.pointOf k := by
  obtain ⟨p, hp⟩ := hs.pipe_of_stores hk
  rw [Database.pointOf_eq hp, Database.pointOf_eq (h.pipe_eq hs hneeded hp)]

/-- What was reported of the pipes of a plan stays so. -/
theorem Reported.step {report : Report} (hr : Reported db report e) (hs : db.Sound)
    (hp : SoundPlans db) (h : Step db next) : Reported next report e := by
  obtain ⟨hurl, hplan, plan, r, hrow, hresults, hkeeps⟩ := hr
  obtain ⟨q, hq, hcontinues⟩ := h.planRow? hrow
  have hmem := (mem_of_planRow? hrow).1
  have hsame : reportsOf q report.results = reportsOf plan report.results := by
    rw [reportsOf, hcontinues.pipes, reportsOf]
  refine ⟨hurl, hplan, q, r, hq, hresults, hsame ▸ hkeeps.congr fun entry hentry => ?_⟩
  obtain ⟨p, hplanned, hname⟩ := planned_of_reportsOf hentry
  rw [← hname]
  exact h.pointOf_eq hs (needed_of_planned hmem hplanned) (hp.stored plan hmem p hplanned)

theorem Steps.reported {report : Report} (h : Steps db next) (hs : db.Sound) (hp : SoundPlans db)
    (hr : Reported db report e) : Reported next report e :=
  (h.keeps (P := fun db => SoundPlans db ∧ Reported db report e) hs ⟨hp, hr⟩
    fun hs hboth hstep => ⟨hboth.1.step hs hstep, hboth.2.step hs hboth.1 hstep⟩).2

/-- Every event was left behind by some report, and holds what it says. -/
theorem reported_ofChanges {cs : List Change} (hread : ∀ c ∈ cs, c.AsRead) :
    ∀ e ∈ (ofChanges cs).events, ∃ report, Change.exchange e.timestamp report ∈ cs ∧
      Reported (ofChanges cs) report e := by
  induction cs using List.reverseRecOn with
  | nil => simp [ofChanges, empty]
  | append_singleton cs c ih =>
    have hcs : ∀ d ∈ cs, d.AsRead := fun d hd => hread d (List.mem_append_left _ hd)
    have hs := sound_ofChanges hcs
    have hp := soundPlans_ofChanges hcs
    have hsteps : Steps (ofChanges cs) (ofChanges (cs ++ [c])) :=
      steps_ofChanges fun d hd => hread d (List.mem_append_right _ hd)
    have hbefore : ∀ e ∈ (ofChanges cs).events, ∃ report, Change.exchange e.timestamp report ∈ cs ++ [c] ∧
        Reported (ofChanges (cs ++ [c])) report e := fun e he => by
      obtain ⟨report, hmem, hreported⟩ := ih hcs e he
      exact ⟨report, List.mem_append_left _ hmem, hsteps.reported hs hp hreported⟩
    rw [ofChanges_concat] at hsteps hbefore ⊢
    obtain hevents | ⟨time, report, receipt, rfl, h⟩ := events_after (ofChanges cs) c
    · rwa [hevents]
    · obtain ⟨e, hevents, rfl, hreported⟩ := reported_of_exchange hs hp h
      rw [hevents]
      refine List.forall_mem_append.2 ⟨hbefore, List.forall_mem_singleton.2 ?_⟩
      exact ⟨report, by simp, hsteps.reported hs hp hreported⟩

end Database
end PagePipes
