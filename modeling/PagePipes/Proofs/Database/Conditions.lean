import PagePipes.Proofs.Database.Sound

set_option autoImplicit false

/-!
# Conditions that nothing uses

A condition is used by the links that attach pipes to it and by the rule resources that stand for it.
It is stored with its first use and goes with its last one. Only a rule of the rules interface that
lists no pipes stores a condition without a use; nothing takes such a condition away before
something uses it.
-/
namespace PagePipes.Database

variable {db next : Database} {u : Uuid} {k : Key} {a : Change} {cs : List Change} {c d : Condition}

/-- Some link attaches a pipe to the condition, or some resource stands for it. -/
def Uses (db : Database) (c : Condition) : Prop :=
  (∃ l ∈ db.links, l.condition = c) ∨ ∃ row ∈ db.resources, row.subject = .rule c

theorem usesCondition_iff : db.usesCondition c = true ↔ db.Uses c := by
  simp [usesCondition, Uses]

/-- The condition is stored and nothing uses it. -/
def Idle (db : Database) (c : Condition) : Prop := c ∈ db.conditions ∧ ¬ db.Uses c

/-- Every condition that something uses is stored. -/
def Covered (db : Database) : Prop := ∀ c, db.Uses c → c ∈ db.conditions

/-- The change makes a rule of the condition, through the rules interface, that lists no pipes. -/
def MakesBare (db : Database) (a : Change) (c : Condition) : Prop :=
  ∃ r next q, a = .createRule r ∧ db.createRule r = .ok (next, q) ∧ r.pipes = [] ∧
    q.predicate.condition = c

/-! ## Conditions along a change -/

theorem Covered.grown {used made : Condition → Prop} (hcov : db.Covered)
    (hconditions : ∀ c, c ∈ next.conditions ↔ c ∈ db.conditions ∨ used c ∨ made c)
    (huses : ∀ c, next.Uses c ↔ db.Uses c ∨ used c) (c : Condition) :
    c ∈ next.conditions ↔ next.Uses c ∨ db.Idle c ∨ made c := by
  have := hcov c
  rw [hconditions, huses, Idle]
  tauto

theorem mem_pruneCondition : c ∈ (db.pruneCondition d).conditions ↔
    c ∈ db.conditions ∧ (c = d → db.Uses d) := by
  unfold pruneCondition
  split
  · next hused => simp [usesCondition_iff.1 hused]
  · next hunused =>
    rw [usesCondition_iff] at hunused
    simp [hunused]

theorem uses_pruneCondition : (db.pruneCondition d).Uses c ↔ db.Uses c := by
  obtain ⟨conditions, h⟩ := pruneCondition_eq db d
  rw [h]
  rfl

/-- A condition that loses a use goes when that was the last one. -/
theorem Covered.pruned {links : List Link} {resources : List ResourceRow} (hcov : db.Covered)
    (hfewer : ∀ c, Uses { db with links, resources } c → db.Uses c)
    (hothers : ∀ c, c ≠ d → db.Uses c → Uses { db with links, resources } c)
    (hused : db.Uses d) (c : Condition) :
    c ∈ (pruneCondition { db with links, resources } d).conditions ↔
      (pruneCondition { db with links, resources } d).Uses c ∨ db.Idle c := by
  rw [mem_pruneCondition, uses_pruneCondition, Idle]
  have hstored := hcov c
  have hfewer := hfewer c
  by_cases hc : c = d
  · subst hc
    simp only [true_implies]
    tauto
  · have hsame : Uses { db with links, resources } c ↔ db.Uses c := ⟨hfewer, hothers c hc⟩
    simp only [hc, false_implies, and_true]
    tauto

/-! ## Rules -/

theorem createRule_stores {r q : Rule} (h : db.createRule r = .ok (next, q)) :
    next.conditions = insertNew q.predicate.condition db.conditions ∧
      q.pipes.length = r.pipes.length := by
  obtain ⟨⟨⟩, -, h⟩ := Result.bind_eq_ok.1 h
  obtain ⟨x, hx, h⟩ := Result.bind_eq_ok.1 h
  obtain ⟨linked, hlinked, h⟩ := Result.bind_eq_ok.1 h
  cases Result.pure_eq_ok.1 h
  obtain ⟨-, links, rfl, -⟩ := linkPipes_eq_ok hlinked
  exact ⟨rfl, (qualifyRule_eq_ok hx).2.length_eq.symm⟩

theorem Covered.createRule {r q : Rule} (hcov : db.Covered) (h : db.createRule r = .ok (next, q))
    (c : Condition) :
    c ∈ next.conditions ↔ next.Uses c ∨ db.Idle c ∨ MakesBare db (.createRule r) c := by
  obtain ⟨hconditions, hlength⟩ := createRule_stores h
  obtain ⟨-, -, -, conditions, links, hnext, hlinks⟩ := createRule_eq_ok h
  have hbare : MakesBare db (.createRule r) c ↔ q.predicate.condition = c ∧ r.pipes = [] := by
    constructor
    · rintro ⟨r', next', q', hr, hok, hpipes, hc⟩
      cases hr
      cases h.symm.trans hok
      exact ⟨hc, hpipes⟩
    · rintro ⟨hc, hpipes⟩
      exact ⟨r, next, q, rfl, h, hpipes, hc⟩
  have hstores : ∀ c, c ∈ next.conditions ↔ c ∈ db.conditions ∨
      (q.predicate.condition = c ∧ r.pipes ≠ []) ∨ (q.predicate.condition = c ∧ r.pipes = []) := by
    intro c
    rw [hconditions, mem_insertNew]
    tauto
  have huses : ∀ c, next.Uses c ↔ db.Uses c ∨ (q.predicate.condition = c ∧ r.pipes ≠ []) := by
    intro c
    have hsome : (∃ k, k ∈ q.pipes) ↔ r.pipes ≠ [] := by
      rw [← List.length_pos_iff_exists_mem, hlength, List.length_pos_iff]
    simp only [hnext, Uses, hlinks, ← hsome]
    constructor
    · rintro (⟨l, hl | ⟨hl, -, hpipe⟩, rfl⟩ | hrow)
      · exact .inl (.inl ⟨l, hl, rfl⟩)
      · exact .inr ⟨hl.symm, l.pipe, hpipe⟩
      · exact .inl (.inr hrow)
    · rintro ((⟨l, hl, rfl⟩ | hrow) | ⟨rfl, k, hk⟩)
      · exact .inl ⟨l, .inl hl, rfl⟩
      · exact .inr hrow
      · exact .inl ⟨⟨k, _, none⟩, .inr ⟨rfl, rfl, hk⟩, rfl⟩
  rw [hbare]
  exact hcov.grown hstores huses c

theorem Covered.deleteRule {r : Rule} (hcov : db.Covered) (h : db.deleteRule r = .ok next)
    (c : Condition) : c ∈ next.conditions ↔ next.Uses c ∨ db.Idle c := by
  obtain ⟨q, -, links, rfl, ⟨l, hl, hcondition⟩, hlinks⟩ := prune_of_deleteRule h
  refine hcov.pruned ?_ ?_ (.inl ⟨l, hl, hcondition⟩) c
  · exact fun c => Or.imp_left fun ⟨l, hl, hc⟩ => ⟨l, ((hlinks l).1 hl).1, hc⟩
  · exact fun c hne => Or.imp_left fun ⟨l, hl, hc⟩ =>
      ⟨l, (hlinks l).2 ⟨hl, fun hnamed => hne (hc ▸ hnamed.1)⟩, hc⟩

/-! ## Resources -/

theorem conditions_of_insertSubject {q : Resource} {inserted linked : Database} {subject : Subject}
    {rows : List ResourceRow} (hinsert : db.insertSubject u k q.spec = .ok (inserted, subject))
    (hlink : { inserted with resources := rows }.linkSubject k q.spec = .ok linked) :
    c ∈ linked.conditions ↔ c ∈ db.conditions ∨ ∃ x, q.spec = .rule x ∧ c = x.predicate.condition := by
  generalize q.spec = spec at hinsert hlink
  cases spec with
  | pipe p =>
    cases hinsert
    cases hlink
    obtain ⟨pipes, h⟩ := insertPipe_frame db k p
    simp [h]
  | view v =>
    obtain ⟨⟨viewed, stored⟩, hv, hinsert⟩ := Result.bind_eq_ok.1 hinsert
    cases Result.pure_eq_ok.1 hinsert
    cases hlink
    obtain ⟨views, viewPipes, objects, rfl⟩ := insertView_frame hv
    simp
  | rule x =>
    cases hinsert
    obtain ⟨-, links, rfl, -⟩ := linkPipes_eq_ok hlink
    simp [insertCondition]

theorem uses_of_created {q : Resource} (h : Created db u q next) :
    next.Uses c ↔ db.Uses c ∨ ∃ x, q.spec = .rule x ∧ c = x.predicate.condition := by
  cases h with
  | @pipe p hq =>
    obtain ⟨pipes, heq⟩ := insertPipe_frame db q.key p
    simp [heq, hq, Uses, Resource.row]
  | view hq hv =>
    obtain ⟨views, viewPipes, objects, rfl⟩ := insertView_frame hv
    simp [hq, Uses, Resource.row]
  | @rule x conditions links hq hstored hlinks =>
    simp only [Uses, hlinks, hq, Spec.rule.injEq, exists_eq_left', List.mem_append, List.mem_singleton]
    constructor
    · rintro (⟨l, hl | ⟨hl, -⟩, rfl⟩ | ⟨row, hrow | rfl, hsubject⟩)
      · exact .inl (.inl ⟨l, hl, rfl⟩)
      · exact .inr hl
      · exact .inl (.inr ⟨row, hrow, hsubject⟩)
      · exact .inr (Subject.rule.inj hsubject).symm
    · rintro ((⟨l, hl, rfl⟩ | ⟨row, hrow, hsubject⟩) | rfl)
      · exact .inl ⟨l, .inl hl, rfl⟩
      · exact .inr ⟨row, .inl hrow, hsubject⟩
      · exact .inr ⟨_, .inr rfl, rfl⟩

/-- The uses of conditions become no fewer, and conditions come with them. -/
structure Grows (db next : Database) : Prop where
  uses : ∀ c, db.Uses c → next.Uses c
  conditions : db.Covered → ∀ c, c ∈ next.conditions ↔ next.Uses c ∨ db.Idle c

theorem Covered.of_conditions {made : Condition → Prop}
    (h : ∀ c, c ∈ next.conditions ↔ next.Uses c ∨ db.Idle c ∨ made c) : next.Covered :=
  fun c hc => (h c).2 (.inl hc)

theorem Grows.of_same (hconditions : next.conditions = db.conditions) (hlinks : next.links = db.links)
    (hresources : next.resources = db.resources) : Grows db next := by
  have huses : ∀ c, next.Uses c ↔ db.Uses c := fun c => by rw [Uses, Uses, hlinks, hresources]
  refine ⟨fun c => (huses c).2, fun hcov c => ?_⟩
  have := hcov c
  rw [hconditions, huses, Idle]
  tauto

theorem Grows.refl (db : Database) : Grows db db := .of_same rfl rfl rfl

theorem Grows.trans {last : Database} (h : Grows db next) (h' : Grows next last) : Grows db last where
  uses c hc := h'.uses c (h.uses c hc)
  conditions hcov c := by
    have hnext := h.conditions hcov
    rw [h'.conditions (fun c hc => (hnext c).2 (.inl hc)) c, Idle, hnext c]
    have := h'.uses c
    tauto

theorem grows_createResource {r : Resource} (h : db.createResource u r = .ok (next, k)) :
    Grows db next := by
  obtain ⟨-, q, hq, rfl, ⟨rfl, -⟩ | ⟨hfresh, hcreated⟩⟩ := createResource_eq_ok h
  · exact .refl _
  have hconditions : ∀ c, c ∈ next.conditions ↔
      c ∈ db.conditions ∨ ∃ x, q.spec = .rule x ∧ c = x.predicate.condition := by
    obtain ⟨⟨⟩, -, h⟩ := Result.bind_eq_ok.1 h
    obtain ⟨q', hq', h⟩ := Result.bind_eq_ok.1 h
    cases hq.symm.trans hq'
    obtain ⟨row?, hrow, h⟩ := Result.bind_eq_ok.1 h
    cases ((resourceRow?_eq_none rfl).2 hfresh).symm.trans hrow
    obtain ⟨⟨inserted, subject⟩, hinsert, h⟩ := Result.bind_eq_ok.1 h
    obtain ⟨linked, hlink, h⟩ := Result.bind_eq_ok.1 h
    cases Result.pure_eq_ok.1 h
    exact fun c => conditions_of_insertSubject hinsert hlink
  refine ⟨fun c hc => (uses_of_created hcreated).2 (.inl hc), fun hcov c => ?_⟩
  have hstores : ∀ c, c ∈ next.conditions ↔
      c ∈ db.conditions ∨ (∃ x, q.spec = .rule x ∧ c = x.predicate.condition) ∨ False := by
    simpa using hconditions
  have hgrown := hcov.grown hstores (fun c => uses_of_created hcreated) c
  simpa using hgrown

theorem grows_createAll {ix : Index} {fresh : Nat → Uuid} {n : Nat} {keys ids : List Key}
    (h : createAll ix fresh n db keys = .ok (next, ids)) : Grows db next :=
  createAll_keeps (.refl db) (fun _ _ _ _ _ _ _ _ hgrows h => hgrows.trans (grows_createResource h)) h

theorem Covered.deleteResource (hcov : db.Covered) (h : db.deleteResource k = .ok next)
    (c : Condition) : c ∈ next.conditions ↔ next.Uses c ∨ db.Idle c := by
  obtain ⟨row, hrow, -, h⟩ := deleteSubject_of_deleteResource h
  have hothers : ∀ c, row.subject ≠ .rule c → ((∃ r ∈ db.resources, r.subject = .rule c) ↔
      ∃ r ∈ db.resources.filter (· ≠ row), r.subject = .rule c) := by
    refine fun c hne => ⟨?_, fun ⟨r, hr, hc⟩ => ⟨r, (List.mem_filter.1 hr).1, hc⟩⟩
    rintro ⟨r, hr, hc⟩
    refine ⟨r, List.mem_filter.2 ⟨hr, decide_eq_true ?_⟩, hc⟩
    rintro rfl
    exact hne hc
  have hsame : next.conditions = db.conditions → next.links = db.links →
      next.resources = db.resources.filter (· ≠ row) → (∀ c, row.subject ≠ .rule c) →
      (c ∈ next.conditions ↔ next.Uses c ∨ db.Idle c) := by
    intro hconditions hlinks hresources hsubject
    have huses : next.Uses c ↔ db.Uses c := by
      rw [Uses, Uses, hlinks, hresources, hothers c (hsubject c)]
    have := hcov c
    rw [hconditions, huses, Idle]
    tauto
  cases hsubject : row.subject with
  | pipe =>
    rw [hsubject] at h
    cases h
    exact hsame rfl rfl rfl (by simp [hsubject])
  | view v =>
    rw [hsubject] at h
    obtain ⟨viewRow, w, -, -, rfl⟩ := deleteView_eq_ok h
    exact hsame rfl rfl rfl (by simp [hsubject])
  | rule d =>
    rw [hsubject] at h
    cases h
    refine hcov.pruned (fun c => Or.imp ?_ ?_) (fun c hne => Or.imp ?_ ?_)
      (.inr ⟨row, hrow, hsubject⟩) c
    · exact fun ⟨l, hl, hc⟩ => ⟨l, (List.mem_filter.1 hl).1, hc⟩
    · exact fun ⟨r, hr, hc⟩ => ⟨r, (List.mem_filter.1 hr).1, hc⟩
    · exact fun ⟨l, hl, hc⟩ => ⟨l, List.mem_filter.2 ⟨hl, by simp [hc, hne]⟩, hc⟩
    · exact (hothers c (by simpa [hsubject] using hne.symm)).1

/-! ## Runs -/

theorem Covered.after (hcov : db.Covered) (a : Change) (c : Condition) :
    c ∈ (Change.after db a).conditions ↔
      (Change.after db a).Uses c ∨ db.Idle c ∨ MakesBare db a c := by
  have hother : (∀ r, a ≠ .createRule r) ∨ (∀ next, ¬ Change.Leads db a next) →
      ¬ MakesBare db a c := by
    rintro h ⟨r, next, q, hr, hmade, -⟩
    exact h.elim (fun h => h r hr) fun h => h next (hr ▸ .createRule hmade)
  obtain ⟨hfails, hsame⟩ | hleads := Change.after_cases db a
  · simpa [hsame, hother (.inr hfails)] using (Grows.refl db).conditions hcov c
  · generalize Change.after db a = next at hleads ⊢
    have hgrows : (∀ r, a ≠ .createRule r) → Grows db next →
        (c ∈ next.conditions ↔ next.Uses c ∨ db.Idle c ∨ MakesBare db a c) := fun hne h => by
      simpa [hother (.inl hne)] using h.conditions hcov c
    cases hleads with
    | createRule h => exact hcov.createRule h c
    | deleteRule h => simpa [hother (.inl (by simp))] using hcov.deleteRule h c
    | deleteResource h => simpa [hother (.inl (by simp))] using hcov.deleteResource h c
    | createResource h => exact hgrows (by simp) (grows_createResource h)
    | putIndex _ h =>
      obtain ⟨q, -, -, hall⟩ := putIndex_eq_ok.1 h
      exact hgrows (by simp) (grows_createAll hall)
    | setDisabled h =>
      obtain ⟨-, rfl⟩ := setDisabled_eq_ok.1 h
      exact hgrows (by simp) (.of_same rfl rfl rfl)
    | createView h =>
      obtain ⟨views, viewPipes, objects, rfl⟩ := createView_frame h
      exact hgrows (by simp) (.of_same rfl rfl rfl)
    | trigger h =>
      obtain ⟨plans, rfl⟩ := trigger_frame h
      exact hgrows (by simp) (.of_same rfl rfl rfl)
    | exchange h =>
      obtain ⟨events, objects, plans, rfl⟩ := exchange_frame h
      exact hgrows (by simp) (.of_same rfl rfl rfl)

theorem covered_ofChanges (cs : List Change) : (ofChanges cs).Covered := by
  induction cs using List.reverseRecOn with
  | nil => simp [Covered, Uses, ofChanges, empty]
  | append_singleton cs a ih =>
    rw [ofChanges_concat]
    exact .of_conditions (ih.after a)

/-- Some change made a rule of the condition that lists no pipes, and nothing has used the condition
since. -/
def LeftBare (cs : List Change) (c : Condition) : Prop :=
  ∃ before a after, cs = before ++ a :: after ∧ MakesBare (ofChanges before) a c ∧
    ∀ between rest, after = between ++ rest → ¬ (ofChanges (before ++ a :: between)).Uses c

theorem leftBare_concat : LeftBare (cs ++ [a]) c ↔
    ¬ (ofChanges (cs ++ [a])).Uses c ∧ (MakesBare (ofChanges cs) a c ∨ LeftBare cs c) := by
  constructor
  · rintro ⟨before, b, after, hsplit, hmakes, hunused⟩
    refine ⟨hsplit ▸ hunused after [] (by simp), ?_⟩
    induction after using List.reverseRecOn with
    | nil =>
      obtain ⟨rfl, rfl⟩ := List.append_singleton_inj.1 hsplit
      exact .inl hmakes
    | append_singleton after d _ =>
      rw [← List.cons_append, ← List.append_assoc] at hsplit
      obtain ⟨rfl, rfl⟩ := List.append_singleton_inj.1 hsplit
      refine .inr ⟨before, b, after, rfl, hmakes, fun between rest hafter => ?_⟩
      exact hunused between (rest ++ [a]) (by rw [hafter]; simp)
  · rintro ⟨hlast, hmakes | ⟨before, b, after, rfl, hmakes, hunused⟩⟩
    · refine ⟨cs, a, [], rfl, hmakes, fun between rest hafter => ?_⟩
      rw [(List.append_eq_nil_iff.1 hafter.symm).1]
      exact hlast
    · refine ⟨before, b, after ++ [a], by simp, hmakes, fun between rest hafter => ?_⟩
      induction rest using List.reverseRecOn with
      | nil =>
        rw [List.append_nil] at hafter
        rw [← hafter]
        simpa using hlast
      | append_singleton rest e _ =>
        rw [← List.append_assoc] at hafter
        exact hunused between rest (List.append_singleton_inj.1 hafter).1

/-- A stored condition is without a use just when it is left of a rule without pipes. -/
theorem idle_iff_leftBare (cs : List Change) (c : Condition) :
    (ofChanges cs).Idle c ↔ LeftBare cs c := by
  induction cs using List.reverseRecOn with
  | nil =>
    refine iff_of_false (by simp [Idle, ofChanges, empty]) ?_
    rintro ⟨before, a, after, h, -⟩
    simp at h
  | append_singleton cs a ih =>
    have hafter := (covered_ofChanges cs).after a c
    rw [leftBare_concat, ← ih, ofChanges_concat, Idle, hafter]
    tauto

/-- After any changes every condition that something uses is stored. The stored conditions that
nothing uses are just those left of a rule of the rules interface that lists no pipes. -/
theorem unused_conditions_left_bare (cs : List Change) (c : Condition) :
    ((ofChanges cs).Uses c → c ∈ (ofChanges cs).conditions) ∧
      ((c ∈ (ofChanges cs).conditions ∧ ¬ (ofChanges cs).Uses c) ↔ LeftBare cs c) :=
  ⟨covered_ofChanges cs c, idle_iff_leftBare cs c⟩

/-- Where every rule of the rules interface lists a pipe, every stored condition is used. -/
theorem uses_of_mem_conditions (hpipes : ∀ r, Change.createRule r ∈ cs → r.pipes ≠ [])
    (hc : c ∈ (ofChanges cs).conditions) : (ofChanges cs).Uses c := by
  by_contra hunused
  obtain ⟨before, a, after, rfl, ⟨r, next, q, rfl, -, hnone, -⟩, -⟩ :=
    (idle_iff_leftBare cs c).1 ⟨hc, hunused⟩
  exact hpipes r (by simp) hnone

example : (ofChanges [.createRule ⟨⟨some "example.com", none, false⟩, [], []⟩]).conditions =
    [⟨"example.com", "", false⟩] := by decide +kernel

end PagePipes.Database
