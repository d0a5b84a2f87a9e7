import PagePipes.Proofs.Database.Records

set_option autoImplicit false

/-!
# Reports on stored plans

Every exchange of a stored plan reports under a key that a report on the plan may name, whatever has
happened to the store since: a key that is no part of a plan is the one fault of a report that speaks
of a pipe, and every other fault is about a value. The value is recorded for the planned pipes that
the key stands for.
-/
namespace PagePipes

/-! ## Faults that speak of a pipe -/

/-- A report names a pipe that its plan does not have. -/
def notPlanned (u : Uuid) (k : Key) : Error :=
  .invalidArgument ("pipe " ++ k.text ++ " is not part of plan " ++ u.text)

def Error.SpeaksOfPipe : Error → Prop
  | .invalidArgument reason => "pipe ".toList <+: reason.toList
  | _ => False

theorem notPlanned_speaksOfPipe (u : Uuid) (k : Key) : (notPlanned u k).SpeaksOfPipe := by
  simp [notPlanned, Error.SpeaksOfPipe, List.append_assoc]

/-- It may fail, but no pipe is to blame. -/
def Result.Blameless {α : Type} (x : Result α) : Prop := ∀ e, x = .error e → ¬ e.SpeaksOfPipe

namespace Result.Blameless

variable {α β : Type} {x : Result α} {f : α → Result β}

theorem ok (a : α) : Blameless (.ok a) := fun e h => by cases h

theorem error {e : Error} (h : ¬ e.SpeaksOfPipe) : Blameless (α := α) (.error e) := fun e' he => by
  cases he
  exact h

theorem bind (hx : Blameless x) (hf : ∀ a, x = .ok a → Blameless (f a)) : Blameless (x >>= f) := by
  cases x with
  | ok a => exact hf a rfl
  | error e => exact error (hx e rfl)

theorem discard (hx : Blameless x) : Blameless (Functor.discard x) := by
  cases x with
  | ok a => exact ok _
  | error e => exact error (hx e rfl)

theorem forM {f : α → Result Unit} {xs : List α} (h : ∀ a ∈ xs, Blameless (f a)) :
    Blameless (xs.forM f) := by
  induction xs with
  | nil => exact ok _
  | cons a xs ih =>
    obtain ⟨ha, hxs⟩ := List.forall_mem_cons.1 h
    exact ha.bind fun _ _ => ih hxs

theorem foldlM {f : β → α → Result β} {xs : List α} {b : β}
    (h : ∀ a ∈ xs, ∀ b, Blameless (f b a)) : Blameless (xs.foldlM f b) := by
  induction xs generalizing b with
  | nil => exact ok b
  | cons a xs ih =>
    obtain ⟨ha, hxs⟩ := List.forall_mem_cons.1 h
    rw [List.foldlM_cons]
    exact (ha b).bind fun _ _ => ih hxs

end Result.Blameless

namespace Sql

open Result (Blameless)

theorem Argument.blameless_ofScalar (s : Scalar) (j : Json) : Blameless (Argument.ofScalar s j) := by
  have hmismatch : ¬ (Argument.mismatch s j).SpeaksOfPipe := by
    simp [Argument.mismatch, Error.SpeaksOfPipe, List.append_assoc]
  unfold Argument.ofScalar
  cases s with
  | bytes =>
    dsimp only
    split
    · split
      · exact .ok _
      · exact .error (by simp [Error.SpeaksOfPipe])
    · exact .error hmismatch
  | uint64 =>
    dsimp only
    split
    · exact .error hmismatch
    · split
      · exact .ok _
      · exact .error (by simp [Error.SpeaksOfPipe])
  | string =>
    cases j with
    | str t => exact .ok _
    | _ => exact .error hmismatch
  | bool =>
    cases j with
    | bool b => exact .ok _
    | _ => exact .error hmismatch
  | int64 | float64 =>
    dsimp only
    split
    · exact .ok _
    · exact .error hmismatch

theorem Argument.blameless_ofJson (p : Point) (j : Json) : Blameless (Argument.ofJson p j) := by
  unfold Argument.ofJson
  split
  · split
    · exact .ok _
    · exact .error (by simp [Error.SpeaksOfPipe])
  · split
    · split
      · exact (Blameless.forM fun item _ => (blameless_ofScalar _ item).discard).bind fun _ _ => .ok _
      · exact .error (by simp [Error.SpeaksOfPipe])
    · exact blameless_ofScalar _ _

theorem Collection.blameless_cells (results : List PipeResult) (columns : List CollectionColumn) :
    Blameless (Collection.cells results columns) := by
  induction columns with
  | nil => exact .ok _
  | cons col rest ih =>
    rw [Collection.cells]
    split
    · exact (Argument.blameless_ofJson _ _).bind fun _ _ => ih.bind fun _ _ => .ok _
    · split
      · exact ih
      · exact .ok _

end Sql

namespace Database

open Result (Blameless)

theorem blameless_insertInto (table : String) (cells : List (Sql.CollectionColumn × Sql.Argument))
    (objects : List SchemaObject) : Blameless (insertInto table cells objects) := by
  induction objects with
  | nil => exact .error (by simp [Error.SpeaksOfPipe])
  | cons o rest ih =>
    cases o with
    | table name columns rows =>
      rw [insertInto]
      split
      · refine Blameless.bind ?_ fun _ _ => .ok _
        unfold insertRow
        split
        · exact .error (by simp [Error.SpeaksOfPipe])
        · exact .ok _
      · exact ih.bind fun _ _ => .ok _
    | view _ _ | aliasView _ _ => exact ih.bind fun _ _ => .ok _

theorem blameless_fill (results : List PipeResult) (s : List SchemaObject × Nat) (c : Sql.Collection) :
    Blameless (fill results s c) := by
  unfold fill
  split
  · exact .ok s
  · refine ((Sql.Collection.blameless_cells results c.columns).bind fun _ _ => .ok _).bind fun _ _ => ?_
    split
    · exact .ok s
    · exact (blameless_insertInto _ _ _).bind fun _ _ => .ok _

/-! ## Collections of a sound database -/

variable {db next : Database} {u : Uuid} {plan : PlanRow}

theorem Sound.points (hs : db.Sound) {v : View} (h : ∀ k ∈ v.references, db.Stores k) :
    ∃ points, db.points v = .ok points ∧ ∀ c ∈ v.columns, c.pipe ∈ points := by
  unfold Database.points
  rw [View.references, List.forall_mem_map] at h
  generalize v.columns = columns at h
  suffices hfrom : ∀ m : Sql.Points, ∃ points, columns.foldlM (fun (m : Sql.Points) c => do
      let p ← db.pipe c.pipe
      return m.insert c.pipe p.point) m = .ok points ∧
        ∀ k, (k ∈ m ∨ ∃ c ∈ columns, c.pipe = k) → k ∈ points by
    obtain ⟨points, hpoints, hall⟩ := hfrom ∅
    exact ⟨points, hpoints, fun c hc => hall c.pipe (.inr ⟨c, hc, rfl⟩)⟩
  induction columns with
  | nil => exact fun m => ⟨m, rfl, fun k hk => hk.elim id fun h => by simp at h⟩
  | cons c rest ih =>
    intro m
    obtain ⟨hc, hrest⟩ := List.forall_mem_cons.1 h
    obtain ⟨p, hp⟩ := hs.pipe_of_stores hc
    obtain ⟨points, hpoints, hall⟩ := ih hrest (m.insert c.pipe p.point)
    refine ⟨points, by rw [List.foldlM_cons, hp]; exact hpoints, fun k hk => hall k ?_⟩
    rw [Std.ExtTreeMap.mem_insert]
    obtain hk | ⟨d, hd, rfl⟩ := hk
    · exact .inl (.inr hk)
    · obtain rfl | hd := List.mem_cons.1 hd
      · exact .inl (.inl Std.ReflCmp.compare_self)
      · exact .inr ⟨d, hd, rfl⟩

theorem Sound.collections_succeed (hs : db.Sound) : ∃ all, db.collections = .ok all := by
  refine Result.mapM_succeeds fun row hrow => ?_
  obtain ⟨v, hv⟩ := hs.views.each row hrow
  obtain ⟨points, hpoints, hall⟩ := hs.points fun k hk => hs.views.stored _ (hv.linked k hk).2
  have heach : ∀ c ∈ v.columns, ∃ col, Sql.Collection.columnOf points c = .ok col := fun c hc => by
    obtain ⟨p, hp⟩ := Lookup.exists_of_mem (hall c hc)
    exact ⟨⟨c.name, c.pipe, p⟩, by rw [Sql.Collection.columnOf, hp]⟩
  obtain ⟨columns, hcolumns⟩ := Result.mapM_succeeds heach
  exact ⟨_, by rw [hv.reads, Result.ok_bind, hpoints, Result.ok_bind, Sql.Collection.ofView, hcolumns]; rfl⟩

/-! ## Reports that name planned pipes -/

theorem blameless_addResult {targets : List Target} {r : Recorded} {result : PipeResult}
    (h : ∃ t ∈ targets, t.answers result.pipe = true) :
    Blameless (r.addResult u targets result) := by
  obtain ⟨t, ht, hanswers⟩ := h
  unfold Recorded.addResult
  split
  · next hnone => simp [List.filter_eq_nil_iff.1 hnone t ht] at hanswers
  · exact Blameless.foldlM fun t _ r => (Sql.Argument.blameless_ofJson _ _).bind fun _ _ => .ok _

/-- A report all of whose keys stand for pipes of its plan may fail only because of a value. -/
theorem blameless_exchange (hs : db.Sound) (hp : SoundPlans db) {time : String} {report : Report}
    (hplan : db.planRow? report.uuid = some plan)
    (hnamed : ∀ r ∈ report.results, ∃ p ∈ plan.pipes, p.answers r.pipe = true) :
    Blameless (db.exchange time report) := by
  have htargets := hp.mapM_target hs (mem_of_planRow? hplan).1
  obtain ⟨all, hall⟩ := hs.collections_succeed
  simp only [exchange, hplan, htargets, hall, Result.ok_bind]
  refine Blameless.bind (Blameless.foldlM fun r hr recorded => blameless_addResult ?_) fun recorded _ =>
    (Blameless.foldlM fun c _ s => blameless_fill _ s c).bind fun _ _ => .ok _
  obtain ⟨p, hp, hanswers⟩ := hnamed r hr
  exact ⟨⟨p, db.pointOf p.name⟩, List.mem_map_of_mem hp, hanswers⟩

/-- A key that stands for some pipes of a plan: a report of one value under it is not turned down for
the key, and leaves an event with the value for just these pipes. -/
structure Answers (db : Database) (u : Uuid) (pipes : List PlannedPipe) (k : Key) : Prop where
  accepted : ∀ time url j, db.exchange time ⟨u, url, [⟨k, j⟩]⟩ ≠ .error (notPlanned u k)
  recorded : ∀ time url j next receipt, db.exchange time ⟨u, url, [⟨k, j⟩]⟩ = .ok (next, receipt) →
    ∃ e, next.events = db.events ++ [e] ∧ e.timestamp = time ∧ e.url = url ∧ e.plan = u ∧
      e.results = (pipes.filter (·.answers k)).map fun p => (p.name, storedAs (db.pointOf p.name) j)

theorem answers_of_planRow? (hs : db.Sound) (hp : SoundPlans db) {k : Key}
    (hplan : db.planRow? u = some plan) (hk : ∃ p ∈ plan.pipes, p.answers k = true) :
    Answers db u plan.pipes k where
  accepted time url j h := by
    refine blameless_exchange hs hp hplan ?_ _ h (notPlanned_speaksOfPipe u k)
    exact List.forall_mem_singleton.2 hk
  recorded time url j next receipt h := by
    obtain ⟨e, hevents, htime, hurl, hu, stored, r, hstored, hresults, hkeeps⟩ :=
      reported_of_exchange hs hp h
    cases hplan.symm.trans hstored
    refine ⟨e, hevents, htime, hurl, hu, ?_⟩
    -- the plan has no pipe twice, so no value is reported twice
    have hreports : reportsOf plan [⟨k, j⟩] = (plan.pipes.filter (·.answers k)).map fun p => (p.name, j) := by
      simp [reportsOf]
    have hnodup : ((reportsOf plan [⟨k, j⟩]).map (·.1)).Nodup := by
      rw [hreports, List.map_map]
      exact (hp.names plan (mem_of_planRow? hplan).1).sublist (List.filter_sublist.map _)
    rw [hresults, hkeeps.all hnodup, hreports, List.map_map]
    rfl

/-! ## Plans of triggers -/

/-- The pipes that matched a page are planned, each with the key of its flat form. -/
def PlansMatched (lookup : Key → Option Pipe) (ms : List MatchedPipe) (pipes : List PlannedPipe) : Prop :=
  ∀ p, p ∈ pipes ↔ ∃ m ∈ ms, ∃ f : Planner.Folded, f.For lookup m ∧ p = ⟨f.name, f.exchange⟩

/-- What planning folds for the pipes of a sound database has no exchanges of its own, and its keys
are valid. -/
theorem Sound.folded (hs : db.Sound) (hplain : PlainPipes db) {url : Url} {ms : List MatchedPipe}
    {m : MatchedPipe} {f : Planner.Folded} (hms : db.matched url = .ok ms) (hm : m ∈ ms)
    (hf : f.For (db.table[·]?) m) : f.flat.Plain ∧ Key.validateName f.name.name = .ok () := by
  obtain ⟨found, hfound, -, hmem⟩ := hs.matched url
  cases hms.symm.trans hfound
  obtain ⟨⟨row, hrow, hkey, -, hread⟩, -⟩ := (hmem m).1 hm
  constructor
  · intro a ha
    obtain ha | ⟨k, q, hq, ha⟩ := hf.inlines.mem ha
    · exact hplain row hrow _ hread a ha
    · obtain ⟨other, hother, -, hq⟩ := (hs.tabulates.getElem? k q).1 hq
      exact hplain other hother q hq a ha
  · rw [hf.name, ← hkey]
    exact (hs.pipes.each row hrow).valid.name

end Database
end PagePipes
