import PagePipes.Database.Change
import PagePipes.Proofs.Database.Stored

set_option autoImplicit false

/-!
# What operations do

For each operation that succeeds, the database it answers in terms of the one it was given. Nothing
else about an operation is needed to follow what holds of stored rows from one database to the next.
The frame of an operation says only which tables it may change.
-/
namespace PagePipes

/-- The row that stands for a resource. -/
def Resource.row (r : Resource) (subject : Subject) : ResourceRow :=
  ⟨r.version, r.key, r.metadata.description, Database.distinct r.metadata.labels,
    r.spec.toJson.compact, subject⟩

namespace Database

variable {db next : Database} {k : Key} {u : Uuid}

/-! ## Pipes -/

theorem setDisabled_eq_ok {t : Key} {disabled : Bool} :
    db.setDisabled k disabled = .ok (next, t) ↔ db.resolve k = .ok t ∧
      next = { db with
        pipes := db.pipes.map fun r => if r.key = t then { r with disabled } else r } := by
  rw [setDisabled, Result.bind_eq_ok]
  constructor
  · rintro ⟨t, ht, h⟩
    cases Result.pure_eq_ok.1 h
    exact ⟨ht, rfl⟩
  · rintro ⟨ht, rfl⟩
    exact ⟨t, ht, rfl⟩

theorem insertPipe_eq (db : Database) (k : Key) (p : Pipe) :
    (db.Stores k ∧ db.insertPipe k p = db) ∨
      (¬ db.Stores k ∧
        db.insertPipe k p = { db with pipes := db.pipes ++ [⟨k, p.toJson.compact, false⟩] }) := by
  by_cases h : db.Stores k
  · exact .inl ⟨h, by rw [insertPipe, if_pos (hasPipe_iff.2 h)]⟩
  · exact .inr ⟨h, by rw [insertPipe, if_neg (by rwa [hasPipe_iff])]⟩

theorem insertPipe_frame (db : Database) (k : Key) (p : Pipe) :
    ∃ pipes, db.insertPipe k p = { db with pipes } := by
  obtain ⟨-, h⟩ | ⟨-, h⟩ := insertPipe_eq db k p
  · exact ⟨db.pipes, h⟩
  · exact ⟨_, h⟩

/-! ## Rules -/

/-- Links are made to stored pipes, and only where there is none yet. -/
theorem linkPipes_eq_ok {c : Condition} {owner : Option Key} {pipes : List Key}
    (h : db.linkPipes c owner pipes = .ok next) :
    (∀ k ∈ pipes, db.Stores k) ∧ ∃ links, next = { db with links } ∧
      ∀ l : Link, l ∈ links ↔ l ∈ db.links ∨ (l.condition = c ∧ l.owner = owner ∧ l.pipe ∈ pipes) := by
  induction pipes generalizing db with
  | nil =>
    cases Result.pure_eq_ok.1 h
    exact ⟨by simp, _, rfl, by simp⟩
  | cons k pipes ih =>
    rw [linkPipes, List.foldlM_cons, Result.bind_eq_ok] at h
    obtain ⟨middle, hmiddle, h⟩ := h
    obtain ⟨⟨⟩, hstored, hmiddle⟩ := Result.bind_eq_ok.1 hmiddle
    cases Result.pure_eq_ok.1 hmiddle
    obtain ⟨hall, links, rfl, hlinks⟩ := ih h
    refine ⟨List.forall_mem_cons.2 ⟨needPipe_eq_ok.1 hstored, hall⟩, links, rfl, fun l => ?_⟩
    rw [hlinks, mem_insertNew, List.mem_cons]
    obtain ⟨pipe, condition, by'⟩ := l
    rw [Link.mk.injEq]
    grind

theorem pruneCondition_eq (db : Database) (c : Condition) :
    ∃ conditions, db.pruneCondition c = { db with conditions } := by
  unfold pruneCondition
  split
  · exact ⟨db.conditions, rfl⟩
  · exact ⟨_, rfl⟩

theorem unlinkOwner_eq (db : Database) (c : Condition) (owner : Key) :
    ∃ conditions links, db.unlinkOwner c owner = { db with conditions, links } ∧
      ∀ l : Link, l ∈ links ↔ l ∈ db.links ∧ ¬ (l.condition = c ∧ l.owner = some owner) := by
  obtain ⟨conditions, h⟩ := pruneCondition_eq { db with
    links := db.links.filter fun l => !(l.condition == c && l.owner == some owner) } c
  refine ⟨conditions, _, h, fun l => ?_⟩
  simp only [List.mem_filter, Bool.not_eq_true', Bool.and_eq_false_iff, beq_eq_false_iff_ne, ne_eq,
    not_and_or]

theorem createRule_eq_ok {r q : Rule} (h : db.createRule r = .ok (next, q)) :
    r.normalized.validate = .ok () ∧ q.predicate = r.predicate.normalized ∧
      List.Forall₂ db.Resolves r.pipes q.pipes ∧ ∃ conditions links,
        next = { db with conditions, links } ∧ ∀ l : Link, l ∈ links ↔
          l ∈ db.links ∨ (l.condition = q.predicate.condition ∧ l.owner = none ∧ l.pipe ∈ q.pipes) := by
  obtain ⟨⟨⟩, hvalid, h⟩ := Result.bind_eq_ok.1 h
  obtain ⟨x, hx, h⟩ := Result.bind_eq_ok.1 h
  obtain ⟨linked, hlinked, h⟩ := Result.bind_eq_ok.1 h
  cases Result.pure_eq_ok.1 h
  obtain ⟨hpredicate, hpipes⟩ := qualifyRule_eq_ok hx
  obtain ⟨-, links, rfl, hlinks⟩ := linkPipes_eq_ok hlinked
  exact ⟨hvalid, hpredicate, hpipes, _, links, rfl, hlinks⟩

/-- Only links of the rules interface are removed, and only those that the rule names. There is such
a link, and the condition goes with its last use. -/
theorem prune_of_deleteRule {r : Rule} (h : db.deleteRule r = .ok next) :
    ∃ q, db.qualifyRule r.normalized = .ok q ∧ ∃ links,
      next = pruneCondition { db with links } q.predicate.condition ∧
      (∃ l ∈ db.links, l.condition = q.predicate.condition) ∧ ∀ l : Link, l ∈ links ↔
        l ∈ db.links ∧ ¬ (l.condition = q.predicate.condition ∧ l.owner = none ∧ l.pipe ∈ q.pipes) := by
  obtain ⟨q, hq, h⟩ := Result.bind_eq_ok.1 h
  by_cases hc : q.predicate.condition ∉ db.conditions
  · simp only [hc, not_false_eq_true, ↓reduceIte, Result.throw_bind, reduceCtorEq] at h
  simp only [hc, ↓reduceIte] at h
  obtain ⟨⟨⟩, -, h⟩ := Result.bind_eq_ok.1 h
  split at h
  · simp only [Result.throw_bind, reduceCtorEq] at h
  next hany =>
  cases Result.pure_eq_ok.1 h
  simp only [Bool.not_eq_true', Bool.not_eq_false, List.any_eq_true, Bool.and_eq_true, beq_iff_eq] at hany
  obtain ⟨l, hl, ⟨hcondition, -⟩, -⟩ := hany
  refine ⟨q, hq, _, rfl, ⟨l, hl, hcondition⟩, fun l => ?_⟩
  simp only [List.mem_filter, Bool.not_eq_true', Bool.and_eq_false_iff, beq_eq_false_iff_ne, ne_eq,
    not_and_or, Option.isNone_eq_false_iff, decide_eq_false_iff_not, or_assoc]
  cases l.owner <;> simp

theorem deleteRule_eq_ok {r : Rule} (h : db.deleteRule r = .ok next) :
    ∃ q, db.qualifyRule r.normalized = .ok q ∧ ∃ conditions links,
      next = { db with conditions, links } ∧ ∀ l : Link, l ∈ links ↔
        l ∈ db.links ∧ ¬ (l.condition = q.predicate.condition ∧ l.owner = none ∧ l.pipe ∈ q.pipes) := by
  obtain ⟨q, hq, links, rfl, -, hlinks⟩ := prune_of_deleteRule h
  obtain ⟨conditions, hprune⟩ := pruneCondition_eq { db with links } q.predicate.condition
  exact ⟨q, hq, conditions, links, hprune, hlinks⟩

theorem createRule_frame {r q : Rule} (h : db.createRule r = .ok (next, q)) :
    ∃ conditions links, next = { db with conditions, links } := by
  obtain ⟨-, -, -, conditions, links, rfl, -⟩ := createRule_eq_ok h
  exact ⟨conditions, links, rfl⟩

theorem deleteRule_frame {r : Rule} (h : db.deleteRule r = .ok next) :
    ∃ conditions links, next = { db with conditions, links } := by
  obtain ⟨q, -, conditions, links, rfl, -⟩ := deleteRule_eq_ok h
  exact ⟨conditions, links, rfl⟩

/-! ## Views -/

theorem linkView_eq_ok (h : db.linkView u k = .ok next) :
    db.Stores k ∧ (u, k) ∉ db.viewPipes ∧
      next = { db with viewPipes := db.viewPipes ++ [(u, k)] } := by
  obtain ⟨⟨⟩, hstored, h⟩ := Result.bind_eq_ok.1 h
  by_cases hlinked : (u, k) ∈ db.viewPipes
  · simp only [hlinked, ↓reduceIte, Result.throw_bind, reduceCtorEq] at h
  simp only [hlinked, ↓reduceIte] at h
  cases Result.pure_eq_ok.1 h
  exact ⟨needPipe_eq_ok.1 hstored, hlinked, rfl⟩

theorem linkViews_eq_ok {references : List Key}
    (h : references.foldlM (linkView · u) db = .ok next) :
    (∀ k ∈ references, db.Stores k ∧ (u, k) ∉ db.viewPipes) ∧ references.Nodup ∧
      next = { db with viewPipes := db.viewPipes ++ references.map (u, ·) } := by
  induction references generalizing db with
  | nil =>
    cases Result.pure_eq_ok.1 h
    simp
  | cons k references ih =>
    rw [List.foldlM_cons, Result.bind_eq_ok] at h
    obtain ⟨middle, hmiddle, h⟩ := h
    obtain ⟨hstored, hfresh, rfl⟩ := linkView_eq_ok hmiddle
    obtain ⟨hall, hnodup, rfl⟩ := ih h
    have hrest : ∀ j ∈ references, db.Stores j ∧ (u, j) ∉ db.viewPipes ∧ j ≠ k := fun j hj => by
      obtain ⟨hj, hnew⟩ := hall j hj
      simp only [List.mem_append, List.mem_singleton, Prod.mk.injEq, true_and, not_or] at hnew
      exact ⟨hj, hnew⟩
    refine ⟨List.forall_mem_cons.2 ⟨⟨hstored, hfresh⟩, fun j hj => ?_⟩, ?_, by simp⟩
    · exact ⟨(hrest j hj).1, (hrest j hj).2.1⟩
    · exact List.nodup_cons.2 ⟨fun hk => (hrest k hk).2.2 rfl, hnodup⟩

theorem makeTable_eq_ok {c : Sql.Collection} (h : db.makeTable c = .ok next) :
    ∃ tables, (tables = if db.hasObject c.tableName then [] else [.table c.tableName c.columns []]) ∧
      next = { db with objects := db.objects ++ tables } := by
  refine ⟨_, rfl, ?_⟩
  unfold makeTable at h
  split at h
  · next hmade =>
    cases h
    rw [if_pos hmade, List.append_nil]
  · next hnone =>
    split at h
    · cases h
    · cases h
      rw [if_neg hnone]

theorem insertView_eq_ok {v : View} {stored : StoredView}
    (h : db.insertView u v = .ok (next, stored)) :
    stored = ⟨u, v.digest, v⟩ ∧ (∀ row ∈ db.views, row.uuid ≠ u) ∧ v.references.Nodup ∧
      (∀ k ∈ v.references, db.Stores k) ∧ ∃ points c tables, db.points v = .ok points ∧
        Sql.Collection.ofView u v v.digest points = .ok c ∧
        (tables = if db.hasObject c.tableName then [] else [.table c.tableName c.columns []]) ∧
        next = { db with
          views := db.views ++ [⟨u, v.digest, v.toJson.compact⟩]
          viewPipes := db.viewPipes ++ v.references.map (u, ·)
          objects := db.objects ++ tables ++
            .view u c.columns :: v.aliasName.toList.map fun a => .aliasView a u } := by
  unfold insertView at h
  -- whatever the alias is, the rest of the operation is the same
  have hrest : (db.viewRow? u).isSome = false ∧
      (v.references.foldlM (linkView · u)
        { db with views := db.views ++ [⟨u, v.digest, v.toJson.compact⟩] } >>= fun linked =>
          linked.points v >>= fun points =>
            Sql.Collection.ofView u v v.digest points >>= fun c =>
              linked.makeTable c >>= fun made =>
                pure (made.makeViews u v c, ⟨u, v.digest, v⟩)) = .ok (next, stored) := by
    cases hrow : (db.viewRow? u).isSome <;> cases ha : v.aliasName with
    | none => simp_all
    | some a => cases ho : db.hasObject a <;> simp_all
  obtain ⟨hfresh, h⟩ := hrest
  obtain ⟨linked, hlinked, h⟩ := Result.bind_eq_ok.1 h
  obtain ⟨points, hpoints, h⟩ := Result.bind_eq_ok.1 h
  obtain ⟨c, hc, h⟩ := Result.bind_eq_ok.1 h
  obtain ⟨made, hmade, h⟩ := Result.bind_eq_ok.1 h
  cases Result.pure_eq_ok.1 h
  obtain ⟨hstored, hnodup, rfl⟩ := linkViews_eq_ok hlinked
  obtain ⟨tables, htables, rfl⟩ := makeTable_eq_ok hmade
  refine ⟨rfl, fun row hrow hu => ?_, hnodup, fun k hk => (hstored k hk).1, points, c, tables,
    hpoints, hc, htables, rfl⟩
  simp only [viewRow?, Option.isSome_eq_false_iff, Option.isNone_iff_eq_none,
    List.find?_eq_none] at hfresh
  exact hfresh row hrow (by simpa using hu)

theorem insertView_frame {v : View} {stored : StoredView}
    (h : db.insertView u v = .ok (next, stored)) :
    ∃ views viewPipes objects, next = { db with views, viewPipes, objects } := by
  obtain ⟨-, -, -, -, points, c, tables, -, -, -, rfl⟩ := insertView_eq_ok h
  exact ⟨_, _, _, rfl⟩

theorem hasObject_of_insertView {v : View} {stored : StoredView} {a : String}
    (h : db.insertView u v = .ok (next, stored)) (ha : v.aliasName = some a) :
    db.hasObject a = false := by
  rw [insertView, ha] at h
  by_contra hused
  rw [Bool.not_eq_false] at hused
  simp only [hused, ↓reduceIte, Result.throw_bind, reduceCtorEq] at h

theorem createView_eq_ok {v : View} {stored : StoredView}
    (h : db.createView u v = .ok (next, stored)) :
    v.validate = .ok () ∧ ∃ w, w.aliasName = v.aliasName ∧
      List.Forall₂ (Column.Repointed db.Resolves) v.columns w.columns ∧
      db.insertView u w = .ok (next, stored) := by
  obtain ⟨⟨⟩, hvalid, h⟩ := Result.bind_eq_ok.1 h
  obtain ⟨w, hw, h⟩ := Result.bind_eq_ok.1 h
  obtain ⟨haliasName, hcolumns⟩ := qualifyView_eq_ok hw
  exact ⟨hvalid, w, haliasName, hcolumns, h⟩

theorem createView_frame {v : View} {stored : StoredView}
    (h : db.createView u v = .ok (next, stored)) :
    ∃ views viewPipes objects, next = { db with views, viewPipes, objects } := by
  obtain ⟨-, w, -, -, h⟩ := createView_eq_ok h
  exact insertView_frame h

theorem deleteView_eq_ok (h : db.deleteView u = .ok next) :
    ∃ row v, db.viewRow? u = some row ∧ row.view = .ok v ∧ next = { db with
      objects := db.objects.filter (!servesView u (v.aliasName.filter View.isIdentifier) ·)
      viewPipes := db.viewPipes.filter (·.1 ≠ u)
      views := db.views.filter (·.uuid ≠ u) } := by
  obtain ⟨stored, hstored, h⟩ := Result.bind_eq_ok.1 h
  cases Result.pure_eq_ok.1 h
  unfold storedView at hstored
  split at hstored
  · next row hrow =>
    obtain ⟨v, hv, hstored⟩ := Result.bind_eq_ok.1 hstored
    cases Result.pure_eq_ok.1 hstored
    exact ⟨row, v, hrow, hv, rfl⟩
  · cases hstored

/-! ## Resources -/

/-- What storing a qualified resource makes of a database in which no resource has its key. -/
inductive Created (db : Database) (u : Uuid) (q : Resource) : Database → Prop
  | pipe {p : Pipe} (hq : q.spec = .pipe p) : Created db u q
      { db.insertPipe q.key p with resources := db.resources ++ [q.row .pipe] }
  | view {v : View} {next : Database} {stored : StoredView} (hq : q.spec = .view v)
      (hv : db.insertView u v = .ok (next, stored)) : Created db u q
        { next with resources := db.resources ++ [q.row (.view u)] }
  | rule {x : Rule} {conditions : List Condition} {links : List Link} (hq : q.spec = .rule x)
      (hstored : ∀ k ∈ x.pipes, db.Stores k)
      (hlinks : ∀ l : Link, l ∈ links ↔ l ∈ db.links ∨
        (l.condition = x.predicate.condition ∧ l.owner = some q.key ∧ l.pipe ∈ x.pipes)) :
      Created db u q
        { db with
          conditions
          links
          resources := db.resources ++ [q.row (.rule x.predicate.condition)] }

theorem resourceRow?_eq_ok {row? : Option ResourceRow} :
    db.resourceRow? k = .ok row? ↔ db.resourceRows k = row?.toList := by
  unfold resourceRow?
  split
  · next h => cases row? <;> simp [h]
  · next h => cases row? <;> simp [h]
  · next many hnone hone =>
    cases row? with
    | none => simpa using hnone
    | some row => simpa using hone row

theorem mem_resourceRows {row : ResourceRow} :
    row ∈ db.resourceRows k ↔ row ∈ db.resources ∧
      if k.isQualified then row.key = k else row.key.name = k.name := by
  unfold resourceRows
  split <;> simp

theorem resourceRow?_eq_none (hk : k.isQualified = true) :
    db.resourceRow? k = .ok none ↔ ∀ row ∈ db.resources, row.key ≠ k := by
  rw [resourceRow?_eq_ok, Option.toList_none, List.eq_nil_iff_forall_not_mem]
  simp [mem_resourceRows, hk]

theorem mem_of_resourceRow? {row : ResourceRow} (h : db.resourceRow? k = .ok (some row)) :
    row ∈ db.resources ∧ (k.isQualified = true → row.key = k) := by
  have hrow : row ∈ db.resourceRows k := by simp [resourceRow?_eq_ok.1 h]
  obtain ⟨hmem, hkey⟩ := mem_resourceRows.1 hrow
  exact ⟨hmem, fun hk => by rwa [if_pos hk] at hkey⟩

theorem created_of_insertSubject {q : Resource} {inserted linked : Database} {subject : Subject}
    (hinsert : db.insertSubject u q.key q.spec = .ok (inserted, subject))
    (hlink : { inserted with resources := inserted.resources ++ [q.row subject] }.linkSubject q.key
      q.spec = .ok linked) : Created db u q linked := by
  cases hq : q.spec with
  | pipe p =>
    rw [hq] at hinsert hlink
    cases hinsert
    cases hlink
    have hresources : (db.insertPipe q.key p).resources = db.resources := by
      obtain ⟨pipes, h⟩ := insertPipe_frame db q.key p
      rw [h]
    rw [hresources]
    exact .pipe hq
  | view v =>
    rw [hq] at hinsert hlink
    obtain ⟨⟨viewed, stored⟩, hv, hinsert⟩ := Result.bind_eq_ok.1 hinsert
    cases Result.pure_eq_ok.1 hinsert
    cases hlink
    have hkept : inserted.resources = db.resources ∧ stored.uuid = u := by
      obtain ⟨rfl, -, -, -, points, c, tables, -, -, -, rfl⟩ := insertView_eq_ok hv
      exact ⟨rfl, rfl⟩
    rw [hkept.1, hkept.2]
    exact .view hq hv
  | rule x =>
    rw [hq] at hinsert hlink
    cases hinsert
    obtain ⟨hstored, links, rfl, hlinks⟩ := linkPipes_eq_ok hlink
    exact .rule hq hstored hlinks

/-- Storing a resource qualifies it. Then either it is stored already and nothing changes, or its key
is new and its row is added with what the row stands for. -/
theorem createResource_eq_ok {r : Resource} (h : db.createResource u r = .ok (next, k)) :
    r.validate = .ok () ∧ ∃ q, db.qualifyResource r = .ok q ∧ k = q.key ∧
      ((next = db ∧ ∃ row ∈ db.resources, row.key = k ∧ row.resource = .ok q) ∨
        ((∀ row ∈ db.resources, row.key ≠ k) ∧ Created db u q next)) := by
  obtain ⟨⟨⟩, hvalid, h⟩ := Result.bind_eq_ok.1 h
  obtain ⟨q, hq, h⟩ := Result.bind_eq_ok.1 h
  obtain ⟨row?, hrow, h⟩ := Result.bind_eq_ok.1 h
  refine ⟨hvalid, q, hq, ?_⟩
  cases row? with
  | some row =>
    obtain ⟨stored, hstored, h⟩ := Result.bind_eq_ok.1 h
    by_cases hsame : stored = q
    · simp only [hsame, ↓reduceIte] at h
      cases Result.pure_eq_ok.1 h
      obtain ⟨hmem, hkey⟩ := mem_of_resourceRow? hrow
      exact ⟨rfl, .inl ⟨rfl, row, hmem, hkey rfl, hsame ▸ hstored⟩⟩
    · simp only [hsame, ↓reduceIte, Result.throw_ne_ok] at h
  | none =>
    obtain ⟨⟨inserted, subject⟩, hinsert, h⟩ := Result.bind_eq_ok.1 h
    obtain ⟨linked, hlink, h⟩ := Result.bind_eq_ok.1 h
    cases Result.pure_eq_ok.1 h
    exact ⟨rfl, .inr ⟨(resourceRow?_eq_none rfl).1 hrow, created_of_insertSubject hinsert hlink⟩⟩

/-- A pipe is unreferenced when no row of another table has its key and no stored spec names it. -/
theorem checkUnreferenced_eq_ok (h : db.checkUnreferenced k = .ok ()) :
    (∀ e ∈ db.viewPipes, e.2 ≠ k) ∧ (∀ l ∈ db.links, l.pipe ≠ k) ∧
      (∀ row ∈ db.pipes, ∀ p, row.pipe = .ok p → ∀ a ∈ p.actions, namesPipe k a = false) ∧
      ∀ plan ∈ db.plans, ∀ p ∈ plan.pipes, p.name ≠ k := by
  unfold checkUnreferenced at h
  by_cases hsource : db.hasObject actionSource = true
  · simp only [hsource, ↓reduceIte, Result.throw_bind, reduceCtorEq] at h
  by_cases hplans : 0 < db.plans.countP fun p => p.pipes.any (·.name == k)
  · simp only [hsource, hplans, Bool.false_eq_true, ↓reduceIte, Result.throw_bind, reduceCtorEq] at h
  by_cases hnamed : 0 < db.viewPipes.countP (·.2 == k) + db.links.countP (·.pipe == k)
      + db.actionsNaming k
  · simp only [hsource, hplans, hnamed, Bool.false_eq_true, ↓reduceIte, Result.throw_ne_ok] at h
  have hzero : db.viewPipes.countP (·.2 == k) = 0 ∧ db.links.countP (·.pipe == k) = 0 ∧
      db.actionsNaming k = 0 := by omega
  obtain ⟨hviews, hlinks, hpipes⟩ := hzero
  rw [List.countP_eq_zero] at hviews hlinks
  rw [actionsNaming, List.countP_eq_zero] at hpipes
  rw [Nat.pos_iff_ne_zero, not_not, List.countP_eq_zero] at hplans
  refine ⟨fun e he => by simpa using hviews e he, fun l hl => by simpa using hlinks l hl,
    fun row hrow p hp a ha => ?_, fun plan hplan p hp => ?_⟩
  · refine Bool.eq_false_iff.2 (hpipes a (List.mem_flatMap.2 ⟨p, ?_, ha⟩))
    exact List.mem_filterMap.2 ⟨row, hrow, by rw [hp]; rfl⟩
  · have hany := hplans plan hplan
    simp only [List.any_eq_true, not_exists, not_and, beq_iff_eq] at hany
    exact hany p hp

/-- What removing a row of a resource makes of a database. -/
inductive Deleted (db : Database) (row : ResourceRow) : Database → Prop
  | pipe (hsubject : row.subject = .pipe) (hfree : db.checkUnreferenced row.key = .ok ()) :
      Deleted db row
        { db with
          resources := db.resources.filter (· ≠ row)
          pipes := db.pipes.filter (·.key ≠ row.key) }
  | view {u : Uuid} {v : View} {viewRow : ViewRow} (hsubject : row.subject = .view u)
      (hrow : db.viewRow? u = some viewRow) (hv : viewRow.view = .ok v) :
      Deleted db row
        { db with
          resources := db.resources.filter (· ≠ row)
          objects := db.objects.filter (!servesView u (v.aliasName.filter View.isIdentifier) ·)
          viewPipes := db.viewPipes.filter (·.1 ≠ u)
          views := db.views.filter (·.uuid ≠ u) }
  | rule {c : Condition} {conditions : List Condition} {links : List Link}
      (hsubject : row.subject = .rule c)
      (hlinks : ∀ l : Link, l ∈ links ↔ l ∈ db.links ∧ ¬ (l.condition = c ∧ l.owner = some row.key)) :
      Deleted db row
        { db with resources := db.resources.filter (· ≠ row), conditions, links }

/-- A resource is removed with its row, and then what the row stands for. -/
theorem deleteSubject_of_deleteResource (h : db.deleteResource k = .ok next) : ∃ row ∈ db.resources,
    (row.subject = .pipe → db.checkUnreferenced row.key = .ok ()) ∧
      deleteSubject { db with resources := db.resources.filter (· ≠ row) } row.key row.subject =
        .ok next := by
  obtain ⟨row, hrow, h⟩ := Result.bind_eq_ok.1 h
  obtain ⟨row?, hrow?, hrow⟩ := Result.bind_eq_ok.1 hrow
  obtain ⟨-, -, h⟩ := Result.bind_eq_ok.1 h
  cases row? with
  | none => simp only [Result.throw_ne_ok] at hrow
  | some other =>
    cases Result.pure_eq_ok.1 hrow
    refine ⟨row, (mem_of_resourceRow? hrow?).1, ?_⟩
    split at h
    · obtain ⟨⟨⟩, hfree, h⟩ := Result.bind_eq_ok.1 h
      exact ⟨fun _ => hfree, h⟩
    · next hsubject => exact ⟨fun hpipe => absurd hpipe hsubject, h⟩

theorem deleteResource_eq_ok (h : db.deleteResource k = .ok next) :
    ∃ row ∈ db.resources, Deleted db row next := by
  obtain ⟨row, hrow, hfree, h⟩ := deleteSubject_of_deleteResource h
  refine ⟨row, hrow, ?_⟩
  cases hsubject : row.subject with
  | pipe =>
    rw [hsubject] at h
    cases h
    exact .pipe hsubject (hfree hsubject)
  | view u =>
    rw [hsubject] at h
    obtain ⟨viewRow, v, hrow, hv, rfl⟩ := deleteView_eq_ok h
    exact .view hsubject hrow hv
  | rule c =>
    rw [hsubject] at h
    obtain ⟨conditions, links, hnext, hlinks⟩ := unlinkOwner_eq
      { db with resources := db.resources.filter (· ≠ row) } c row.key
    rw [deleteSubject, hnext, Except.ok.injEq] at h
    exact h ▸ .rule hsubject hlinks

theorem createAll_eq_ok {ix : Index} {fresh : Nat → Uuid} {n : Nat} {r : Resource} {rest ids : List Key}
    (hr : ix.resources[k]? = some r)
    (h : createAll ix fresh n db (k :: rest) = .ok (next, ids)) :
    ∃ middle id more, db.createResource (fresh n) r = .ok (middle, id) ∧
      createAll ix fresh (n + 1) middle rest = .ok (next, more) ∧ ids = id :: more := by
  rw [createAll] at h
  simp only [hr] at h
  obtain ⟨⟨middle, id⟩, hmiddle, h⟩ := Result.bind_eq_ok.1 h
  obtain ⟨⟨last, more⟩, hmore, h⟩ := Result.bind_eq_ok.1 h
  cases Result.pure_eq_ok.1 h
  exact ⟨middle, id, more, hmiddle, hmore, rfl⟩

theorem createAll_cons {ix : Index} {fresh : Nat → Uuid} {n : Nat} {r : Resource} {rest ids : List Key}
    {middle : Database} {id : Key} (hr : ix.resources[k]? = some r)
    (hmiddle : db.createResource (fresh n) r = .ok (middle, id))
    (hmore : createAll ix fresh (n + 1) middle rest = .ok (next, ids)) :
    createAll ix fresh n db (k :: rest) = .ok (next, id :: ids) := by
  rw [createAll]
  simp only [hr, hmiddle, hmore, Result.ok_bind]
  rfl

theorem createAll_absent {ix : Index} {fresh : Nat → Uuid} {n : Nat} {rest : List Key}
    (hr : ix.resources[k]? = none) :
    createAll ix fresh n db (k :: rest) = createAll ix fresh n db rest := by
  rw [createAll, hr]

theorem createAll_append {ix : Index} {fresh : Nat → Uuid} {n : Nat} {keys others ids : List Key}
    (h : createAll ix fresh n db (keys ++ others) = .ok (next, ids)) :
    ∃ middle m done more, createAll ix fresh n db keys = .ok (middle, done) ∧
      createAll ix fresh m middle others = .ok (next, more) ∧ ids = done ++ more := by
  induction keys generalizing db n ids with
  | nil => exact ⟨db, n, [], ids, rfl, h, rfl⟩
  | cons k keys ih =>
    rw [List.cons_append] at h
    cases hr : ix.resources[k]? with
    | none =>
      rw [createAll_absent hr] at h ⊢
      exact ih h
    | some r =>
      obtain ⟨first, id, rest, hfirst, hrest, rfl⟩ := createAll_eq_ok hr h
      obtain ⟨middle, m, done, more, hdone, hmore, rfl⟩ := ih hrest
      exact ⟨middle, m, id :: done, more, createAll_cons hr hfirst hdone, hmore, rfl⟩

/-- What every call keeps that stores one of the resources, storing all of them keeps. -/
theorem createAll_keeps {P : Database → Prop} {ix : Index} {fresh : Nat → Uuid} {n : Nat}
    {keys ids : List Key} (hdb : P db)
    (hstep : ∀ k ∈ keys, ∀ r, ix.resources[k]? = some r → ∀ {db next : Database} {m : Nat} {id : Key},
      P db → db.createResource (fresh m) r = .ok (next, id) → P next)
    (h : createAll ix fresh n db keys = .ok (next, ids)) : P next := by
  induction keys generalizing db n ids with
  | nil =>
    cases h
    exact hdb
  | cons k keys ih =>
    obtain ⟨hk, hkeys⟩ := List.forall_mem_cons.1 hstep
    cases hr : ix.resources[k]? with
    | none =>
      rw [createAll_absent hr] at h
      exact ih hdb hkeys h
    | some r =>
      obtain ⟨middle, id, more, hmiddle, hmore, -⟩ := createAll_eq_ok hr h
      exact ih (hk r hr hdb hmiddle) hkeys hmore

theorem putIndex_eq_ok {ix : Index} {fresh : Nat → Uuid} {ids : List Key} :
    db.putIndex fresh ix = .ok (next, ids) ↔
    ∃ q, ix.qualified = .ok q ∧ q.traversal.cycle = none ∧
      createAll q fresh 0 db q.traversal.emitted = .ok (next, ids) := by
  constructor
  · intro h
    obtain ⟨q, hq, h⟩ := Result.bind_eq_ok.1 h
    obtain ⟨⟨made, made'⟩, hmade, h⟩ := Result.bind_eq_ok.1 h
    refine ⟨q, hq, ?_⟩
    dsimp only at h
    split at h
    · simp only [Result.throw_ne_ok] at h
    · next hnone =>
      cases Result.pure_eq_ok.1 h
      exact ⟨Option.map_eq_none_iff.1 hnone, hmade⟩
  · rintro ⟨q, hq, hcycle, hmade⟩
    simp only [putIndex, hq, hmade, Traversal.error?, hcycle, Result.ok_bind, Option.map_none]
    rfl

/-! ## Triggers and exchanges -/

theorem storePlan_eq_ok {plan : Plan} {pipes : List PlannedPipe}
    (h : db.storePlan u plan pipes = .ok next) :
    (∀ row ∈ db.plans, row.uuid ≠ u) ∧ (∀ p ∈ pipes, db.Stores p.name) ∧
      next = { db with plans := db.plans ++ [⟨u, plan.toJson.compact, pipes, false⟩] } := by
  unfold storePlan at h
  split at h
  · simp only [Result.throw_bind, reduceCtorEq] at h
  · next hfresh =>
    obtain ⟨⟨⟩, hstored, h⟩ := Result.bind_eq_ok.1 h
    cases Result.pure_eq_ok.1 h
    refine ⟨fun row hrow hu => hfresh ?_, fun p hp => ?_, rfl⟩
    · exact List.any_eq_true.2 ⟨row, hrow, by simpa using hu⟩
    · exact needPipe_eq_ok.1 (Result.ok_of_forM hstored hp)

theorem trigger_eq_ok {request : Trigger.Request} {response : Trigger.Response}
    (h : db.trigger u request = .ok (next, response)) :
    ∃ url o, Trigger.parseUrl request.url = .ok url ∧ Trigger.outcome db.source url = .ok o ∧
      response = Trigger.response request u o ∧ (∀ row ∈ db.plans, row.uuid ≠ u) ∧
      (∀ p ∈ o.planned, db.Stores p.name) ∧
      next = { db with plans := db.plans ++ [⟨u, o.plan.toJson.compact, o.planned, false⟩] } := by
  obtain ⟨url, hurl, h⟩ := Result.bind_eq_ok.1 h
  obtain ⟨o, ho, h⟩ := Result.bind_eq_ok.1 h
  obtain ⟨made, hmade, h⟩ := Result.bind_eq_ok.1 h
  cases Result.pure_eq_ok.1 h
  obtain ⟨hfresh, hstored, rfl⟩ := storePlan_eq_ok hmade
  exact ⟨url, o, hurl, ho, rfl, hfresh, hstored, rfl⟩

theorem trigger_frame {request : Trigger.Request} {response : Trigger.Response}
    (h : db.trigger u request = .ok (next, response)) : ∃ plans, next = { db with plans } := by
  obtain ⟨url, o, -, -, -, -, -, rfl⟩ := trigger_eq_ok h
  exact ⟨_, rfl⟩

/-- A report leaves an event behind, fills collections and finishes its plan. -/
theorem exchange_eq_ok {time : String} {report : Report} {receipt : Receipt}
    (h : db.exchange time report = .ok (next, receipt)) :
    ∃ plan targets recorded all objects n, db.planRow? report.uuid = some plan ∧
      plan.pipes.mapM db.target = .ok targets ∧
      report.results.foldlM (Recorded.addResult report.uuid targets) {} = .ok recorded ∧
      db.collections = .ok all ∧
      all.foldlM (fill (recorded.reported.toList.map fun (k, j) => PipeResult.mk k j))
        (db.objects, 0) = .ok (objects, n) ∧
      receipt = ⟨db.events.length + 1, report.results.length, n⟩ ∧ next = { db with
        events := db.events ++ [⟨time, report.url, report.uuid, recorded.values⟩]
        objects
        plans := db.plans.map fun p =>
          if p.uuid = report.uuid then { p with finished := true } else p } := by
  unfold exchange at h
  split at h
  · next plan hplan =>
    obtain ⟨targets, htargets, h⟩ := Result.bind_eq_ok.1 h
    obtain ⟨recorded, hrecorded, h⟩ := Result.bind_eq_ok.1 h
    obtain ⟨all, hall, h⟩ := Result.bind_eq_ok.1 h
    obtain ⟨⟨objects, n⟩, hfill, h⟩ := Result.bind_eq_ok.1 h
    cases Result.pure_eq_ok.1 h
    exact ⟨plan, targets, recorded, all, objects, n, hplan, htargets, hrecorded, hall, hfill, rfl,
      rfl⟩
  · simp only [Result.throw_ne_ok] at h

theorem exchange_frame {time : String} {report : Report} {receipt : Receipt}
    (h : db.exchange time report = .ok (next, receipt)) :
    ∃ events objects plans, next = { db with events, objects, plans } := by
  obtain ⟨plan, targets, recorded, all, objects, n, -, -, -, -, -, -, rfl⟩ := exchange_eq_ok h
  exact ⟨_, objects, _, rfl⟩

end Database

/-! ## Changes -/

namespace Change

variable {db next : Database} {c : Change}

/-- The change succeeds on the first database and leads to the second one: its operation does. -/
inductive Leads (db : Database) : Change → Database → Prop
  | createResource {u r next k} (h : db.createResource u r = .ok (next, k)) :
      Leads db (.createResource u r) next
  | deleteResource {k next} (h : db.deleteResource k = .ok next) : Leads db (.deleteResource k) next
  | putIndex {us rs ix next ids} (hix : indexOf rs = .ok ix)
      (h : db.putIndex (fun n => us.getD n ⟨0⟩) ix = .ok (next, ids)) :
      Leads db (.putIndex us rs) next
  | setDisabled {k disabled next t} (h : db.setDisabled k disabled = .ok (next, t)) :
      Leads db (.setDisabled k disabled) next
  | createRule {r next q} (h : db.createRule r = .ok (next, q)) : Leads db (.createRule r) next
  | deleteRule {r next} (h : db.deleteRule r = .ok next) : Leads db (.deleteRule r) next
  | createView {u v next stored} (h : db.createView u v = .ok (next, stored)) :
      Leads db (.createView u v) next
  | trigger {u request next response} (h : db.trigger u request = .ok (next, response)) :
      Leads db (.trigger u request) next
  | exchange {time report next receipt} (h : db.exchange time report = .ok (next, receipt)) :
      Leads db (.exchange time report) next

theorem leads_iff : Leads db c next ↔ ∃ answer, c.apply db = .ok (next, answer) := by
  constructor
  · rintro (h | h | ⟨hix, h⟩ | h | h | h | h | h | h)
    case deleteResource | deleteRule => exact ⟨(), Result.bind_eq_ok.2 ⟨_, h, rfl⟩⟩
    case putIndex => exact ⟨_, Result.bind_eq_ok.2 ⟨_, hix, h⟩⟩
    all_goals exact ⟨_, h⟩
  · rintro ⟨answer, h⟩
    cases c with
    | createResource u r => exact .createResource h
    | deleteResource k =>
      obtain ⟨made, hmade, h⟩ := Result.bind_eq_ok.1 h
      cases Result.pure_eq_ok.1 h
      exact .deleteResource hmade
    | putIndex us rs =>
      obtain ⟨ix, hix, h⟩ := Result.bind_eq_ok.1 h
      exact .putIndex hix h
    | setDisabled k disabled => exact .setDisabled h
    | createRule r => exact .createRule h
    | deleteRule r =>
      obtain ⟨made, hmade, h⟩ := Result.bind_eq_ok.1 h
      cases Result.pure_eq_ok.1 h
      exact .deleteRule hmade
    | createView u v => exact .createView h
    | trigger u request => exact .trigger h
    | exchange time report => exact .exchange h

theorem after_cases (db : Database) (c : Change) :
    ((∀ next, ¬ Leads db c next) ∧ after db c = db) ∨ Leads db c (after db c) := by
  unfold after
  cases happly : c.apply db with
  | ok made => exact .inr (leads_iff.2 ⟨made.2, happly⟩)
  | error e =>
    refine .inl ⟨fun next hnext => ?_, rfl⟩
    obtain ⟨answer, h⟩ := leads_iff.1 hnext
    cases happly.symm.trans h

end Change
end PagePipes
