import PagePipes.Proofs.Database.Sound
import PagePipes.Proofs.Trigger.Outcome

set_option autoImplicit false

/-!
# What a sound database serves

In a sound database every page can be matched: the pipes found are the enabled ones that some link
attaches to the page. Each of them comes with all that it refers to, so the page can be planned.
-/
namespace PagePipes.Database

variable {db : Database} {u : Url} {k : Key} {p : Pipe}

/-- Some link attaches the pipe to the page. -/
def LinksTo (db : Database) (u : Url) (k : Key) : Prop :=
  ∃ l ∈ db.links, l.pipe = k ∧ l.condition.applies u = .ok true

def table (db : Database) : Key.Map Pipe :=
  .ofList (db.pipes.filterMap fun row => row.pipe.toOption.map fun p => (row.key, p))

/-- A map that holds the pipes of the rows. -/
structure Tabulates (rows : List PipeRow) (m : Key.Map Pipe) : Prop where
  keys : (rows.map (·.key)).Nodup
  reads : ∀ row ∈ rows, ∃ p, row.pipe = .ok p
  getElem? : ∀ (k : Key) (p : Pipe), m[k]? = some p ↔ ∃ row ∈ rows, row.key = k ∧ row.pipe = .ok p

namespace Sound

theorem tabulates (hs : db.Sound) : Tabulates db.pipes db.table where
  keys := hs.pipes.keys
  reads row hrow := by
    obtain ⟨p, hp, -⟩ := (hs.pipes.each row hrow).reads
    exact ⟨p, hp⟩
  getElem? k p := by
    have hmem : ∀ k p, (k, p) ∈ (db.pipes.filterMap fun row =>
        row.pipe.toOption.map fun p => (row.key, p)) ↔
          ∃ row ∈ db.pipes, row.key = k ∧ row.pipe = .ok p := by
      intro k p
      simp only [List.mem_filterMap, Option.map_eq_some_iff, Prod.mk.injEq]
      refine exists_congr fun row => and_congr_right fun _ => ?_
      cases row.pipe <;> simp [Except.toOption, and_comm]
    have hdistinct : ((db.pipes.filterMap fun row => row.pipe.toOption.map fun p =>
        (row.key, p)).map (·.1)).Nodup := by
      rw [List.Nodup, List.pairwise_map, List.pairwise_filterMap]
      refine (List.pairwise_map.1 hs.pipes.keys).imp fun {a b} hab e he f hf => ?_
      obtain ⟨p, -, rfl⟩ := Option.map_eq_some_iff.1 he
      obtain ⟨q, -, rfl⟩ := Option.map_eq_some_iff.1 hf
      exact hab
    rw [table, Lookup.getElem?_ofList hdistinct, hmem]

theorem stores_iff (hs : db.Sound) : db.Stores k ↔ k ∈ db.table := by
  constructor
  · rintro ⟨row, hrow, rfl⟩
    obtain ⟨p, hp⟩ := hs.tabulates.reads row hrow
    exact Lookup.mem ((hs.tabulates.getElem? _ _).2 ⟨row, hrow, rfl, hp⟩)
  · intro hk
    obtain ⟨p, hp⟩ := Lookup.exists_of_mem hk
    obtain ⟨row, hrow, hkey, -⟩ := (hs.tabulates.getElem? k p).1 hp
    exact ⟨row, hrow, hkey⟩

/-! ## Matching -/

theorem attaches (hs : db.Sound) (u : Url) (k : Key) :
    ∃ b, db.attaches u k = .ok b ∧ (b = true ↔ db.LinksTo u k) := by
  have hcondition : ∀ c ∈ db.conditionsOf k, ∃ p : Predicate, p.Settled ∧ c = p.condition := by
    intro c hc
    obtain ⟨l, hl, rfl⟩ := List.mem_map.1 hc
    exact (hs.rules.sound l (List.mem_filter.1 hl).1).2
  have hread : ∀ c ∈ (db.conditionsOf k).filter (·.mayApply (hostOf u)), ∃ b, c.applies u = .ok b :=
    fun c hc => by
      obtain ⟨p, hp, rfl⟩ := hcondition c (List.mem_filter.1 hc).1
      exact ⟨_, Predicate.applies_condition hp⟩
  obtain ⟨answers, hanswers⟩ := Result.mapM_succeeds hread
  refine ⟨answers.contains true, by rw [Database.attaches, hanswers]; rfl, ?_⟩
  rw [List.contains_iff_mem]
  have hall := Result.mapM_eq_ok.1 hanswers
  constructor
  · intro htrue
    obtain ⟨c, hc, happlies⟩ := Result.exists_of_forall₂ hall.flip htrue
    obtain ⟨l, hl, rfl⟩ := List.mem_map.1 (List.mem_filter.1 hc).1
    obtain ⟨hl, hpipe⟩ := List.mem_filter.1 hl
    exact ⟨l, hl, by simpa using hpipe, happlies⟩
  · rintro ⟨l, hl, rfl, happlies⟩
    have hc : l.condition ∈ db.conditionsOf l.pipe :=
      List.mem_map_of_mem (List.mem_filter.2 ⟨hl, by simp⟩)
    obtain ⟨p, hp, hpc⟩ := hcondition _ hc
    have hp' : p.applies u = true := by
      rw [hpc, Predicate.applies_condition hp] at happlies
      exact Except.ok.inj happlies
    have hmay : l.condition.mayApply (hostOf u) = true := hpc ▸ Predicate.mayApply_of_applies hp hp'
    obtain ⟨b, hb, hcb⟩ := Result.exists_of_forall₂ hall (List.mem_filter.2 ⟨hc, hmay⟩)
    cases happlies.symm.trans hcb
    exact hb

/-- Where pipes are read one by one, just those are matched that some source reads as. -/
theorem mem_matched {α : Type} {key : α → Key} {reads : α → Pipe → Prop} {xs : List α}
    {ms : List MatchedPipe} {m : MatchedPipe} (hreads : ∀ x p q, reads x p → reads x q → p = q)
    (h : List.Forall₂ (fun x (m : MatchedPipe) => key x = m.name ∧ reads x m.pipe) xs ms) :
    m ∈ ms ↔ ∃ x ∈ xs, key x = m.name ∧ reads x m.pipe := by
  constructor
  · exact Result.exists_of_forall₂ h.flip
  · rintro ⟨x, hx, hname, hpipe⟩
    obtain ⟨n, hn, hname', hpipe'⟩ := Result.exists_of_forall₂ h hx
    have hmn : m = n := by
      cases m
      cases n
      cases hreads _ _ _ hpipe hpipe'
      cases hname.symm.trans hname'
      rfl
    exact hmn ▸ hn

/-- A page matches the enabled pipes that some link attaches to it, each once. -/
theorem matched (hs : db.Sound) (u : Url) :
    ∃ ms, db.matched u = .ok ms ∧ (ms.map (·.name)).Nodup ∧ ∀ m, m ∈ ms ↔
      (∃ row ∈ db.pipes, row.key = m.name ∧ row.disabled = false ∧ row.pipe = .ok m.pipe) ∧
        db.LinksTo u m.name := by
  obtain ⟨linked, hlinked⟩ : ∃ linked : Key → Bool,
      ∀ k, db.attaches u k = .ok (linked k) ∧ (linked k = true ↔ db.LinksTo u k) :=
    ⟨_, fun k => Classical.choose_spec (hs.attaches u k)⟩
  have hperm : db.listedPipes.Perm db.pipes := List.mergeSort_perm ..
  let rows := (db.listedPipes.filter (!·.disabled)).filter (linked ·.key)
  have hrows : (db.listedPipes.filter (!·.disabled)).filterM (db.attaches u ·.key) = .ok rows :=
    Result.filterM_eq_ok fun row _ => (hlinked row.key).1
  have hmem : ∀ row, row ∈ rows ↔
      (row ∈ db.pipes ∧ row.disabled = false) ∧ db.LinksTo u row.key := fun row => by
    simp only [rows, List.mem_filter, hperm.mem_iff, (hlinked _).2, Bool.not_eq_true']
  have hread : ∀ r ∈ rows, ∃ m, (do return ⟨r.key, ← r.pipe⟩ : Result MatchedPipe) = .ok m :=
    fun row hrow => by
      obtain ⟨p, hp, -⟩ := (hs.pipes.each row ((hmem row).1 hrow).1.1).reads
      exact ⟨⟨row.key, p⟩, by rw [hp]; rfl⟩
  obtain ⟨ms, hms⟩ := Result.mapM_succeeds hread
  have hall : List.Forall₂ (fun (r : PipeRow) (m : MatchedPipe) => r.key = m.name ∧ r.pipe = .ok m.pipe)
      rows ms := (Result.mapM_eq_ok.1 hms).imp fun r m hrm => by
    obtain ⟨p, hp, hm⟩ := Result.bind_eq_ok.1 hrm
    cases Result.pure_eq_ok.1 hm
    exact ⟨rfl, hp⟩
  refine ⟨ms, by rw [Database.matched, hrows, Result.ok_bind, hms], ?_, fun m => ?_⟩
  · have hnames : rows.map (·.key) = ms.map (·.name) :=
      Result.map_eq_of_forall₂ hall fun _ _ h => h.1
    rw [← hnames]
    refine List.Nodup.sublist (List.Sublist.map _ ?_) ((hperm.map (·.key)).nodup_iff.2 hs.pipes.keys)
    exact (List.filter_sublist).trans List.filter_sublist
  · have hreads : ∀ (row : PipeRow) (p q : Pipe), row.pipe = .ok p → row.pipe = .ok q → p = q :=
      fun _ _ _ hp hq => Except.ok.inj (hp.symm.trans hq)
    rw [mem_matched hreads hall]
    constructor
    · rintro ⟨row, hrow, hkey, hpipe⟩
      obtain ⟨⟨hstored, hon⟩, hlinks⟩ := (hmem row).1 hrow
      exact ⟨⟨row, hstored, hkey, hon, hpipe⟩, hkey ▸ hlinks⟩
    · rintro ⟨⟨row, hstored, hkey, hon, hpipe⟩, hlinks⟩
      exact ⟨row, (hmem row).2 ⟨⟨hstored, hon⟩, hkey.symm ▸ hlinks⟩, hkey, hpipe⟩

end Sound

/-! ## References -/

theorem Tabulates.erase {rows : List PipeRow} {m : Key.Map Pipe} (h : Tabulates rows m) {row : PipeRow}
    (hrow : row ∈ rows) : Tabulates (rows.erase row) (m.erase row.key) where
  keys := h.keys.sublist (List.erase_sublist.map _)
  reads r hr := h.reads r (List.mem_of_mem_erase hr)
  getElem? k p := by
    have hnodup : rows.Nodup := h.keys.of_map
    rw [Std.ExtTreeMap.getElem?_erase]
    by_cases hk : row.key = k
    · subst hk
      simp only [Std.compare_self, ↓reduceIte, reduceCtorEq, false_iff]
      rintro ⟨r, hr, hkey, -⟩
      obtain ⟨hne, hr⟩ := hnodup.mem_erase_iff.1 hr
      exact hne (List.inj_on_of_nodup_map h.keys hr hrow hkey)
    · simp only [Std.compare_eq_iff_eq, hk, ↓reduceIte, h.getElem?]
      refine exists_congr fun r => ?_
      constructor
      · rintro ⟨hr, hkey, hp⟩
        have hne : r ≠ row := fun heq => hk (heq ▸ hkey)
        exact ⟨hnodup.mem_erase_iff.2 ⟨hne, hr⟩, hkey, hp⟩
      · rintro ⟨hr, hkey, hp⟩
        exact ⟨List.mem_of_mem_erase hr, hkey, hp⟩

theorem referencedPipes_of_no_references {k : Key} {p : Pipe} (hp : db.pipe k = .ok p)
    (hnone : p.references = []) : db.referencedPipes k = .ok ∅ := by
  rw [referencedPipes, hp, Result.ok_bind, hnone, List.reverse_nil, collect]

/-- Collecting among rows comes to the same as collecting among the pipes that they hold. -/
theorem collect_eq_ok {unmet : List PipeRow} {pipes met m : Key.Map Pipe} {stack : List Key}
    (h : Tabulates unmet pipes) (hm : Index.collect pipes met stack = .ok m) :
    collect unmet met stack = .ok m := by
  induction pipes, met, stack using Index.collect.induct generalizing unmet with
  | case1 pipes met =>
    rw [collect, ← hm, Index.collect_nil]
  | case2 pipes met k stack hk ih =>
    rw [Index.collect_met hk] at hm
    rw [collect, if_pos hk, ih h hm]
  | case3 pipes met k stack hk hnone =>
    rw [Index.collect_missing hk hnone] at hm
    cases hm
  | case4 pipes met k stack hk p hp ih =>
    rw [Index.collect_unmet hk hp] at hm
    obtain ⟨row, hrow, rfl, hread⟩ := (h.getElem? k p).1 hp
    have hfind : unmet.find? (·.key == row.key) = some row := Lookup.find?_key h.keys hrow
    rw [collect, if_neg hk]
    split
    · simp_all
    · next r hr =>
      cases hfind.symm.trans hr
      rw [hread, Result.ok_bind]
      exact ih (h.erase hrow) hm

namespace Sound

/-- What a stored pipe refers to is stored, and lower in rank. -/
theorem ranked (hs : db.Sound) : ∃ rank : Key → Nat, ∀ (k : Key) (p : Pipe), db.table[k]? = some p →
    k.isQualified = true ∧ ∀ a ∈ p.actions, a.is .pipe = true →
      ∃ (t : Key) (q : Pipe), a.reference = .ok t ∧ db.table[t]? = some q ∧ rank t < rank k := by
  obtain ⟨rank, hrank⟩ := hs.pipes.ranked
  refine ⟨rank, fun k p hp => ?_⟩
  obtain ⟨row, hrow, rfl, hread⟩ := (hs.tabulates.getElem? k p).1 hp
  obtain ⟨-, hq, q, hread', hpointed⟩ := hs.pipes.each row hrow
  cases hread.symm.trans hread'
  refine ⟨hq, fun a ha hpipe => ?_⟩
  obtain ⟨t, ht, -, -⟩ := hpointed a ha hpipe
  obtain ⟨hstored, hlt⟩ := hrank row hrow p hread t (Pipe.mem_references.2 ⟨a, ha, hpipe, ht⟩)
  obtain ⟨q, hq⟩ := Lookup.exists_of_mem (hs.stores_iff.1 hstored)
  exact ⟨t, q, ht, hq, hlt⟩

theorem closed (hs : db.Sound) : Index.Closed db.table := by
  obtain ⟨rank, hrank⟩ := hs.ranked
  intro k p hp ref href
  obtain ⟨a, ha, hpipe, hka⟩ := Pipe.mem_references.1 href
  obtain ⟨t, q, ht, hq, -⟩ := (hrank k p hp).2 a ha hpipe
  cases hka.symm.trans ht
  exact Lookup.mem hq

theorem serves (hs : db.Sound) : db.source.Serves (db.table[·]?) where
  referenced k p hp := by
    obtain ⟨row, hrow, rfl, hread⟩ := (hs.tabulates.getElem? k p).1 hp
    have hstack : ∀ ref ∈ p.references.reverse, ref ∈ db.table := fun ref href =>
      hs.closed _ p hp ref (List.mem_reverse.1 href)
    obtain ⟨m, hm⟩ := Index.Collecting.start.succeeds hs.closed hstack
    obtain ⟨hsub, hall, hclosed⟩ := Index.Collecting.start.collected hm
    refine ⟨m, ?_, hsub, fun ref href => hall ref (.inr (List.mem_reverse.2 href)), hclosed⟩
    show db.referencedPipes row.key = .ok m
    rw [referencedPipes, pipe_eq hs.pipes.keys hrow, hread, Result.ok_bind,
      collect_eq_ok hs.tabulates hm]
  ranked := hs.ranked

/-! ## Triggers -/

/-- A page is planned with the stored pipes, and its plan is stored, under an identifier that no
plan has yet. -/
theorem trigger_eq (hs : db.Sound) {v : Uuid} {request : Trigger.Request}
    (hurl : Trigger.parseUrl request.url = .ok u) (hfresh : ∀ plan ∈ db.plans, plan.uuid ≠ v) :
    ∃ ms s log, db.matched u = .ok ms ∧ Planner.Planned (db.table[·]?) ms s log ∧
      db.trigger v request =
        .ok ({ db with plans := db.plans ++ [⟨v, s.build.toJson.compact, s.planned, false⟩] },
          Trigger.response request v ⟨ms, s.build, s.planned⟩) := by
  obtain ⟨ms, hms, -, hmem⟩ := hs.matched u
  have hserved : ∀ m ∈ ms, db.table[m.name]? = some m.pipe := fun m hm => by
    obtain ⟨⟨row, hrow, hkey, -, hp⟩, -⟩ := (hmem m).1 hm
    exact (hs.tabulates.getElem? _ _).2 ⟨row, hrow, hkey, hp⟩
  obtain ⟨s, log, houtcome, hplanned⟩ := Trigger.outcome_succeeds hs.serves hms hserved
  refine ⟨ms, s, log, hms, hplanned, ?_⟩
  have hstored : ∀ p ∈ s.planned, db.needPipe p.name = .ok () := fun p hp => by
    obtain ⟨f, hf, rfl⟩ := hplanned.holds.mem_planned.1 hp
    obtain ⟨m, hm, hfm⟩ := (hplanned.mem_log f).1 hf
    rw [needPipe_eq_ok, hs.stores_iff, hfm.name]
    exact Lookup.mem (hserved m hm)
  have hnew : db.plans.any (·.uuid == v) = false := by
    simpa [List.any_eq_false] using hfresh
  rw [Database.trigger, hurl, Result.ok_bind, houtcome, Result.ok_bind, storePlan]
  simp only [hnew, Bool.false_eq_true, ↓reduceIte, Result.forM_eq_ok hstored, Result.ok_bind]
  rfl

end Sound

end PagePipes.Database
