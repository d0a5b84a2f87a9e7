import PagePipes.Proofs.Database.Aliases
import PagePipes.Proofs.Database.RoundTrip

set_option autoImplicit false

/-!
# Removing stored pipes

A stored pipe can be removed just when no stored view has it as a column, no link attaches it, no
stored pipe refers to it and no stored plan has planned it. Then its resource and its own row go, and
no other row refers to it. But while some view is stored under the name of the function that lists
stored actions, no pipe can be removed.
-/
namespace PagePipes

/-- A reference to a pipe is stored to the letter, so the stored action names just what it refers to. -/
theorem Pipe.Pointed.exists_namesPipe {p : Pipe} (h : p.Pointed) (k : Key) :
    (∃ a ∈ p.actions, Database.namesPipe k a = true) ↔ k ∈ p.references := by
  refine ⟨fun ⟨a, ha, hnames⟩ => ?_, h.namesPipe⟩
  simp only [Database.namesPipe, Bool.and_eq_true, beq_iff_eq] at hnames
  obtain ⟨⟨hpipe, hname⟩, hdigest⟩ := hnames
  obtain ⟨t, ht, -, htnames⟩ := h a ha hpipe
  simp only [Database.namesPipe, Bool.and_eq_true, beq_iff_eq] at htnames
  obtain ⟨⟨-, htname⟩, htdigest⟩ := htnames
  have hsame : t = k := by
    obtain ⟨n, d⟩ := k
    obtain ⟨m, e⟩ := t
    simp_all
  exact Pipe.mem_references.2 ⟨a, ha, hpipe, hsame ▸ ht⟩

namespace Lookup

/-- The only row of a key is taken out of its table, and the others stay in their order. -/
theorem exists_filter_ne {α β : Type} [DecidableEq α] [DecidableEq β] {key : α → β} {rows : List α}
    {row : α} (hnodup : (rows.map key).Nodup) (hrow : row ∈ rows) : ∃ before after,
      rows = before ++ row :: after ∧ rows.filter (· ≠ row) = before ++ after ∧
        rows.filter (key · ≠ key row) = before ++ after := by
  obtain ⟨before, after, rfl⟩ := List.append_of_mem hrow
  rw [List.map_append, List.map_cons, List.nodup_middle, List.nodup_cons, ← List.map_append] at hnodup
  have hkeys : ∀ r ∈ before ++ after, key r ≠ key row := fun r hr heq =>
    hnodup.1 (heq ▸ List.mem_map_of_mem hr)
  refine ⟨before, after, rfl, ?_, ?_⟩
  · have hall : (before ++ after).filter (· ≠ row) = before ++ after := by
      refine List.filter_eq_self.2 fun r hr => decide_eq_true ?_
      rintro rfl
      exact hkeys r hr rfl
    rw [List.filter_append, List.filter_cons_of_neg (by simp), ← List.filter_append, hall]
  · have hall : (before ++ after).filter (key · ≠ key row) = before ++ after :=
      List.filter_eq_self.2 fun r hr => decide_eq_true (hkeys r hr)
    rw [List.filter_append, List.filter_cons_of_neg (by simp), ← List.filter_append, hall]

end Lookup

namespace Database

variable {db next : Database} {k : Key} {row : ResourceRow} {cs : List Change}

/-- Nothing that is stored refers to the pipe. -/
structure Unreferenced (db : Database) (k : Key) : Prop where
  views : ∀ row ∈ db.views, ∀ v, row.view = .ok v → k ∉ v.references
  links : ∀ l ∈ db.links, l.pipe ≠ k
  pipes : ∀ row ∈ db.pipes, ∀ p, row.pipe = .ok p → k ∉ p.references
  plans : ∀ plan ∈ db.plans, ∀ p ∈ plan.pipes, p.name ≠ k

/-- Some row of another table refers to the pipe. -/
inductive Mentions (db : Database) (k : Key) : Prop
  | column {u : Uuid} (h : (u, k) ∈ db.viewPipes)
  | link {l : Link} (hl : l ∈ db.links) (h : l.pipe = k)
  | resource {row : ResourceRow} (hrow : row ∈ db.resources) (hsubject : row.subject = .pipe)
      (h : row.key = k)
  | planned {plan : PlanRow} {p : PlannedPipe} (hplan : plan ∈ db.plans) (hp : p ∈ plan.pipes)
      (h : p.name = k)
  | result {e : Event} {value : Sql.Value} (he : e ∈ db.events) (h : (k, value) ∈ e.results)

/-- Some stored view has the name of the function that lists stored actions. -/
def HidesActions (db : Database) : Prop :=
  ∃ row ∈ db.views, ∃ v, row.view = .ok v ∧ v.aliasName = some actionSource

/-! ## Rows along steps -/

/-- Links of views lead from stored views to their columns. -/
def SoundColumns (db : Database) : Prop :=
  ∀ e ∈ db.viewPipes, ∃ row ∈ db.views, row.uuid = e.1 ∧ ∃ v, row.view = .ok v ∧ e.2 ∈ v.references

theorem SoundColumns.step (hq : SoundColumns db) (h : Step db next) : SoundColumns next := by
  cases h.schema with
  | same hviews hlinked _ => rwa [SoundColumns, hviews, hlinked]
  | stored hv h _ hviews hlinked _ =>
    obtain ⟨-, -, -, -, points, c, tables, -, -, -, rfl⟩ := insertView_eq_ok h
    rw [SoundColumns, hviews, hlinked]
    refine List.forall_mem_append.2 ⟨fun e he => ?_, List.forall_mem_map.2 fun k hk => ?_⟩
    · obtain ⟨row, hrow, hcolumn⟩ := hq e he
      exact ⟨row, List.mem_append_left _ hrow, hcolumn⟩
    · exact ⟨_, List.mem_append_right _ (List.mem_singleton.2 rfl), rfl, _, hv.reads, hk⟩
  | removed _ _ hviews hlinked _ =>
    rw [SoundColumns, hviews, hlinked]
    intro e he
    obtain ⟨he, hu⟩ := List.mem_filter.1 he
    obtain ⟨row, hrow, heq, hcolumn⟩ := hq e he
    exact ⟨row, List.mem_filter.2 ⟨hrow, by rwa [heq]⟩, heq, hcolumn⟩

/-- The pipe of a stored resource is stored. -/
def SoundSubjects (db : Database) : Prop :=
  ∀ row ∈ db.resources, row.subject = .pipe → db.Stores row.key

theorem SoundSubjects.created {u : Uuid} {q : Resource} (hq : SoundSubjects db) (h : Created db u q next) :
    SoundSubjects next := by
  obtain ⟨subject, hkind, hresources, -⟩ := h.exists_row
  rw [SoundSubjects, hresources]
  refine List.forall_mem_append.2 ⟨fun row hrow hpipe => ?_, List.forall_mem_singleton.2 fun hpipe => ?_⟩
  · exact h.stores_iff.2 (.inl (hq row hrow hpipe))
  · cases hspec : q.spec with
    | pipe p => exact h.stores_iff.2 (.inr ⟨⟨p, hspec⟩, rfl⟩)
    | view | rule =>
      rw [Resource.kind, hspec, show subject = .pipe from hpipe] at hkind
      cases hkind

theorem SoundSubjects.deleted (hq : SoundSubjects db) (hs : db.Sound) (hrow : row ∈ db.resources)
    (h : Deleted db row next) : SoundSubjects next := by
  cases h with
  | pipe hsubject hfree =>
    intro other hother hpipe
    obtain ⟨hother, hne⟩ := List.mem_filter.1 hother
    obtain ⟨stored, hstored, hkey⟩ := hq other hother hpipe
    refine ⟨stored, List.mem_filter.2 ⟨hstored, decide_eq_true ?_⟩, hkey⟩
    rw [hkey]
    exact fun heq => of_decide_eq_true hne (hs.rules.eq_of_key hother hrow heq)
  | view | rule => exact fun other hother => hq other (List.mem_filter.1 hother).1

theorem SoundSubjects.step (hq : SoundSubjects db) (hs : db.Sound) (h : Step db next) :
    SoundSubjects next := by
  cases h with
  | createResource hread h =>
    obtain ⟨-, q, -, -, ⟨rfl, -⟩ | ⟨-, hcreated⟩⟩ := createResource_eq_ok h
    · exact hq
    · exact hq.created hcreated
  | deleteResource h =>
    obtain ⟨row, hrow, hdeleted⟩ := deleteResource_eq_ok h
    exact hq.deleted hs hrow hdeleted
  | setDisabled h =>
    obtain ⟨-, rfl⟩ := setDisabled_eq_ok.1 h
    intro row hrow hpipe
    obtain ⟨stored, hstored, hkey⟩ := hq row hrow hpipe
    refine ⟨_, List.mem_map_of_mem hstored, ?_⟩
    split <;> exact hkey
  | createRule h =>
    obtain ⟨conditions, links, rfl⟩ := createRule_frame h
    exact hq
  | deleteRule h =>
    obtain ⟨conditions, links, rfl⟩ := deleteRule_frame h
    exact hq
  | createView h =>
    obtain ⟨views, viewPipes, objects, rfl⟩ := createView_frame h
    exact hq
  | trigger h =>
    obtain ⟨plans, rfl⟩ := trigger_frame h
    exact hq
  | exchange h =>
    obtain ⟨events, objects, plans, rfl⟩ := exchange_frame h
    exact hq

theorem soundColumns_ofChanges (h : ∀ c ∈ cs, c.AsRead) : SoundColumns (ofChanges cs) :=
  ofChanges_keeps h (by simp [SoundColumns, empty]) fun _ hq hstep => hq.step hstep

theorem soundSubjects_ofChanges (h : ∀ c ∈ cs, c.AsRead) : SoundSubjects (ofChanges cs) :=
  ofChanges_keeps h (by simp [SoundSubjects, empty]) fun hs hq hstep => hq.step hs hstep

theorem planned_of_result (h : ∀ c ∈ cs, c.AsRead) {e : Event} {value : Sql.Value}
    (he : e ∈ (ofChanges cs).events) (hvalue : (k, value) ∈ e.results) :
    ∃ plan ∈ (ofChanges cs).plans, ∃ p ∈ plan.pipes, p.name = k := by
  obtain ⟨report, -, -, -, plan, r, hplan, hresults, hkeeps⟩ := reported_ofChanges h e he
  have hsome : r.values.lookup k ≠ none := fun hnone => by
    rw [hresults] at hvalue
    simpa using List.lookup_eq_none_iff.1 hnone _ hvalue
  rw [hkeeps.first, ne_eq, Option.map_eq_none_iff] at hsome
  obtain ⟨j, hj⟩ := Option.ne_none_iff_exists'.1 hsome
  obtain ⟨before, after, hreports, -⟩ := List.lookup_eq_some_iff.1 hj
  have hentry : (k, j) ∈ reportsOf plan report.results := by simp [hreports]
  obtain ⟨p, hp, hname⟩ := planned_of_reportsOf hentry
  exact ⟨plan, (mem_of_planRow? hplan).1, p, hp, hname⟩

/-! ## References -/

/-- The search for stored actions finds a reference just where a stored pipe has one. -/
theorem Sound.actionsNaming_pos_iff (hs : db.Sound) (k : Key) : 0 < db.actionsNaming k ↔
    ∃ row ∈ db.pipes, ∃ p, row.pipe = .ok p ∧ k ∈ p.references := by
  simp only [actionsNaming, List.countP_pos_iff, List.mem_flatMap, List.mem_filterMap,
    Result.toOption_eq_some]
  constructor
  · rintro ⟨a, ⟨p, ⟨row, hrow, hp⟩, ha⟩, hnames⟩
    obtain ⟨q, hq, hpointed⟩ := (hs.pipes.each row hrow).reads
    cases hp.symm.trans hq
    exact ⟨row, hrow, p, hp, (hpointed.exists_namesPipe k).1 ⟨a, ha, hnames⟩⟩
  · rintro ⟨row, hrow, p, hp, hk⟩
    obtain ⟨q, hq, hpointed⟩ := (hs.pipes.each row hrow).reads
    cases hp.symm.trans hq
    obtain ⟨a, ha, hnames⟩ := (hpointed.exists_namesPipe k).2 hk
    exact ⟨a, ⟨p, ⟨row, hrow, hp⟩, ha⟩, hnames⟩

theorem unreferenced_iff (hs : db.Sound) (hq : SoundColumns db) (k : Key) : db.Unreferenced k ↔
    (db.plans.countP fun p => p.pipes.any (·.name == k)) = 0 ∧
      db.viewPipes.countP (·.2 == k) + db.links.countP (·.pipe == k) + db.actionsNaming k = 0 := by
  have hviews : db.viewPipes.countP (·.2 == k) = 0 ↔
      ∀ row ∈ db.views, ∀ v, row.view = .ok v → k ∉ v.references := by
    rw [List.countP_eq_zero]
    constructor
    · intro hnone row hrow v hv hk
      obtain ⟨w, hw⟩ := hs.views.each row hrow
      cases hv.symm.trans hw.reads
      exact hnone _ (hw.linked k hk).2 (beq_self_eq_true k)
    · rintro hnone ⟨u, t⟩ he htk
      obtain rfl : t = k := by simpa using htk
      obtain ⟨row, hrow, -, v, hv, hk⟩ := hq _ he
      exact hnone row hrow v hv hk
  have hpipes : db.actionsNaming k = 0 ↔
      ∀ row ∈ db.pipes, ∀ p, row.pipe = .ok p → k ∉ p.references := by
    rw [← Nat.le_zero, ← Nat.not_lt, hs.actionsNaming_pos_iff]
    simp only [not_exists, not_and]
  have hlinks : db.links.countP (·.pipe == k) = 0 ↔ ∀ l ∈ db.links, l.pipe ≠ k := by
    simp [List.countP_eq_zero]
  have hplans : (db.plans.countP fun p => p.pipes.any (·.name == k)) = 0 ↔
      ∀ plan ∈ db.plans, ∀ p ∈ plan.pipes, p.name ≠ k := by
    simp [List.countP_eq_zero]
  rw [hplans, Nat.add_eq_zero_iff, Nat.add_eq_zero_iff, hviews, hlinks, hpipes]
  exact ⟨fun h => ⟨h.plans, ⟨h.views, h.links⟩, h.pipes⟩, fun ⟨hp, ⟨hv, hl⟩, ha⟩ => ⟨hv, hl, ha, hp⟩⟩

theorem checkUnreferenced_cases (hs : db.Sound) (hq : SoundColumns db) (ha : SoundAliases db) (k : Key) :
    (db.HidesActions ∧ db.checkUnreferenced k = .error (.internal "'json_each' is not a function")) ∨
    (¬ db.HidesActions ∧ db.Unreferenced k ∧ db.checkUnreferenced k = .ok ()) ∨
    (¬ db.HidesActions ∧ ¬ db.Unreferenced k ∧
      ∃ message, db.checkUnreferenced k = .error (.failedPrecondition message)) := by
  have hhides : db.hasObject actionSource = true ↔ db.HidesActions :=
    ha.hasObject_iff ⟨by decide, by decide⟩
  by_cases hsource : db.hasObject actionSource = true
  · refine .inl ⟨hhides.1 hsource, ?_⟩
    simp only [checkUnreferenced, hsource, ↓reduceIte]
    rfl
  refine .inr ?_
  rw [← hhides, unreferenced_iff hs hq]
  by_cases hplans : 0 < db.plans.countP fun p => p.pipes.any (·.name == k)
  · refine .inr ⟨hsource, fun h => absurd h.1 hplans.ne', ?_⟩
    simp only [checkUnreferenced, hsource, hplans, ↓reduceIte, Bool.false_eq_true]
    exact ⟨_, rfl⟩
  by_cases hnamed : 0 < db.viewPipes.countP (·.2 == k) + db.links.countP (·.pipe == k)
      + db.actionsNaming k
  · refine .inr ⟨hsource, fun h => absurd h.2 hnamed.ne', ?_⟩
    simp only [checkUnreferenced, hsource, hplans, hnamed, ↓reduceIte, Bool.false_eq_true]
    exact ⟨_, rfl⟩
  · refine .inl ⟨hsource, ⟨Nat.eq_zero_of_not_pos hplans, Nat.eq_zero_of_not_pos hnamed⟩, ?_⟩
    simp only [checkUnreferenced, hsource, hplans, hnamed, ↓reduceIte, Bool.false_eq_true]
    rfl

/-! ## Removal -/

/-- The database without the rows of a pipe resource: all other rows are as before, and none of them
refers to the pipe. -/
structure WithoutPipe (db : Database) (row : ResourceRow) (next : Database) : Prop where
  rows : ∃ before after pipe pipesBefore pipesAfter, db.resources = before ++ row :: after ∧
    pipe.key = row.key ∧ db.pipes = pipesBefore ++ pipe :: pipesAfter ∧
      next = { db with resources := before ++ after, pipes := pipesBefore ++ pipesAfter }
  gone : ¬ next.Stores row.key
  free : ¬ next.Mentions row.key

theorem deleteResource_of_pipe {r : Resource} (hrow : db.resourceRow k = .ok row)
    (hpipe : row.subject = .pipe) (hloads : row.resource = .ok r) :
    db.deleteResource k = (db.checkUnreferenced row.key).map fun _ => { db with
      resources := db.resources.filter (· ≠ row), pipes := db.pipes.filter (·.key ≠ row.key) } := by
  rw [deleteResource, hrow, Result.ok_bind, hloads, hpipe]
  cases db.checkUnreferenced row.key <;> rfl

theorem mem_of_resourceRow (h : db.resourceRow k = .ok row) : row ∈ db.resources := by
  obtain ⟨row?, hrow?, h⟩ := Result.bind_eq_ok.1 h
  cases row? with
  | none => simp only [Result.throw_ne_ok] at h
  | some other =>
    cases Result.pure_eq_ok.1 h
    exact (mem_of_resourceRow? hrow?).1

theorem withoutPipe (hread : ∀ c ∈ cs, c.AsRead) (hrow : row ∈ (ofChanges cs).resources)
    (hpipe : row.subject = .pipe) (hfree : (ofChanges cs).Unreferenced row.key) :
    WithoutPipe (ofChanges cs) row { ofChanges cs with
      resources := (ofChanges cs).resources.filter (· ≠ row)
      pipes := (ofChanges cs).pipes.filter (·.key ≠ row.key) } := by
  have hs := sound_ofChanges hread
  constructor
  case rows =>
    obtain ⟨pipe, hmem, hkey⟩ := soundSubjects_ofChanges hread row hrow hpipe
    obtain ⟨before, after, hresources, hothers, -⟩ := Lookup.exists_filter_ne hs.rules.keys hrow
    obtain ⟨pipesBefore, pipesAfter, hpipes, -, hrest⟩ := Lookup.exists_filter_ne hs.pipes.keys hmem
    rw [hkey] at hrest
    exact ⟨before, after, pipe, pipesBefore, pipesAfter, hresources, hkey, hpipes, by rw [hothers, hrest]⟩
  case gone =>
    rintro ⟨pipe, hmem, hkey⟩
    exact of_decide_eq_true (List.mem_filter.1 hmem).2 hkey
  case free =>
    intro hmentions
    cases hmentions with
    | @column u h =>
      obtain ⟨viewRow, hview, -, v, hv, hk⟩ := soundColumns_ofChanges hread _ h
      exact hfree.views viewRow hview v hv hk
    | link hl h => exact hfree.links _ hl h
    | resource hother _ h =>
      obtain ⟨hother, hne⟩ := List.mem_filter.1 hother
      exact of_decide_eq_true hne (hs.rules.eq_of_key hother hrow h)
    | planned hplan hp h => exact hfree.plans _ hplan _ hp h
    | result he h =>
      obtain ⟨plan, hplan, p, hp, hname⟩ := planned_of_result hread he h
      exact hfree.plans plan hplan p hp hname

/-- A stored pipe whose resource can be read is removed just when nothing refers to it, and else it
is a failed precondition. What is removed is its two rows alone, and no row is left that refers to it.
The exception is a stored view under the name of the function that lists stored actions: while there
is one, no pipe can be removed. The search that the function serves finds just the references of the
stored pipes. -/
theorem pipe_removed_iff_unreferenced (cs : List Change) (hread : ∀ c ∈ cs, c.AsRead) {r : Resource}
    (hrow : (ofChanges cs).resourceRow k = .ok row) (hpipe : row.subject = .pipe)
    (hloads : row.resource = .ok r) :
    ((ofChanges cs).HidesActions → (ofChanges cs).deleteResource k =
      .error (.internal "'json_each' is not a function")) ∧
    (¬ (ofChanges cs).HidesActions →
      ((ofChanges cs).Unreferenced row.key → ∃ next, (ofChanges cs).deleteResource k = .ok next ∧
        WithoutPipe (ofChanges cs) row next) ∧
      (¬ (ofChanges cs).Unreferenced row.key → ∃ message, (ofChanges cs).deleteResource k =
        .error (.failedPrecondition message))) ∧
    (0 < (ofChanges cs).actionsNaming row.key ↔ ∃ stored ∈ (ofChanges cs).pipes, ∃ p,
      stored.pipe = .ok p ∧ row.key ∈ p.references) := by
  have hs := sound_ofChanges hread
  have hmem := mem_of_resourceRow hrow
  rw [deleteResource_of_pipe hrow hpipe hloads]
  refine ⟨fun hhides => ?_, fun hshown => ⟨fun hfree => ?_, fun hused => ?_⟩,
    hs.actionsNaming_pos_iff row.key⟩ <;>
    obtain ⟨h, hcheck⟩ | ⟨h, h', hcheck⟩ | ⟨h, h', message, hcheck⟩ := checkUnreferenced_cases hs
      (soundColumns_ofChanges hread) (soundAliases_ofChanges hread) row.key
  case refine_1.inl => rw [hcheck]; rfl
  case refine_2.inr.inl => exact ⟨_, by rw [hcheck]; rfl, withoutPipe hread hmem hpipe hfree⟩
  case refine_3.inr.inr => exact ⟨message, by rw [hcheck]; rfl⟩
  all_goals contradiction

def loneTitle : List Change :=
  [.createResource ⟨1⟩ (.ofSpec "title" (.pipe ⟨[.ofKind .document], {}⟩))]

/-- The title beside a view of another pipe, which is named as the function that lists actions. -/
def hiddenTitle : List Change := loneTitle ++
  [.createResource ⟨2⟩ (.ofSpec "page" (.pipe ⟨[.ofKind .document], {}⟩)),
    .createView ⟨3⟩ { aliasName := some actionSource, columns := [{ pipe := .bare "page" }] }]

theorem asRead_hiddenTitle : ∀ c ∈ hiddenTitle, c.AsRead := by
  simp only [hiddenTitle, loneTitle, List.cons_append, List.nil_append, List.mem_cons, List.not_mem_nil,
    or_false]
  rintro c (rfl | rfl | rfl)
  · exact List.forall_mem_singleton.2 (Action.readable_ofKind _)
  · exact List.forall_mem_singleton.2 (Action.readable_ofKind _)
  · trivial

theorem lone_title_removed : (∀ c ∈ hiddenTitle, c.AsRead) ∧
    (∃ row next, (ofChanges loneTitle).resourceRow (.bare "title") = .ok row ∧
      (ofChanges loneTitle).deleteResource (.bare "title") = .ok next ∧
      WithoutPipe (ofChanges loneTitle) row next) ∧
    (ofChanges hiddenTitle).deleteResource (.bare "title") =
      .error (.internal "'json_each' is not a function") := by
  have hfound : ∀ cs ∈ [loneTitle, hiddenTitle],
      ((ofChanges cs).resourceRow (.bare "title")).toOption.any (fun row =>
        decide (row.subject = .pipe) && row.resource.toOption.isSome) = true := by decide +kernel
  have hrow : ∀ cs ∈ [loneTitle, hiddenTitle], ∃ row r,
      (ofChanges cs).resourceRow (.bare "title") = .ok row ∧ row.subject = .pipe ∧ row.resource = .ok r :=
    fun cs hcs => by
      obtain ⟨row, hrow, h⟩ := Result.exists_ok_of_any (hfound cs hcs)
      obtain ⟨hpipe, hloads⟩ := Bool.and_eq_true_iff.1 h
      obtain ⟨r, hr⟩ := Option.isSome_iff_exists.1 hloads
      exact ⟨row, r, hrow, of_decide_eq_true hpipe, Result.toOption_eq_some.1 hr⟩
  refine ⟨asRead_hiddenTitle, ?_, ?_⟩
  · obtain ⟨row, r, hrow, hpipe, hloads⟩ := hrow loneTitle (by simp)
    have hread : ∀ c ∈ loneTitle, c.AsRead := fun c hc =>
      asRead_hiddenTitle c (List.mem_append_left _ hc)
    have hnone : (ofChanges loneTitle).views = [] ∧ (ofChanges loneTitle).links = [] ∧
        (ofChanges loneTitle).plans = [] ∧ ∀ row ∈ (ofChanges loneTitle).pipes,
          ∀ p ∈ row.pipe.toOption, p.references = [] := by decide +kernel
    obtain ⟨hviews, hlinks, hplans, hpipes⟩ := hnone
    have hfree : (ofChanges loneTitle).Unreferenced row.key := by
      refine ⟨by simp [hviews], by simp [hlinks], fun other hother p hp => ?_, by simp [hplans]⟩
      rw [hpipes other hother p (Result.toOption_eq_some.2 hp)]
      exact List.not_mem_nil
    obtain ⟨-, hshown, -⟩ := pipe_removed_iff_unreferenced loneTitle hread hrow hpipe hloads
    obtain ⟨next, hnext, hwithout⟩ := (hshown (by simp [HidesActions, hviews])).1 hfree
    exact ⟨row, next, hrow, hnext, hwithout⟩
  · obtain ⟨row, r, hrow, hpipe, hloads⟩ := hrow hiddenTitle (by simp)
    have hhides : (ofChanges hiddenTitle).views.any (fun row => row.view.toOption.any fun v =>
        decide (v.aliasName = some actionSource)) = true := by decide +kernel
    obtain ⟨view, hview, hv⟩ := List.any_eq_true.1 hhides
    obtain ⟨v, hv, halias⟩ := Result.exists_ok_of_any hv
    exact (pipe_removed_iff_unreferenced hiddenTitle asRead_hiddenTitle hrow hpipe hloads).1
      ⟨view, hview, v, hv, of_decide_eq_true halias⟩

end Database
end PagePipes
