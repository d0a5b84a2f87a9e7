import PagePipes.Proofs.Database.Matching
import PagePipes.Proofs.Database.Mirror
import PagePipes.Store.Memory

set_option autoImplicit false

/-!
# Two stores of one index

An index that is kept in memory and the same index stored in a database answer alike: the same pipes
match a page, whatever pipes were switched off in both, and they are planned alike. The one store
looks at every rule, the other at the links of the pipes; they find pipes in different orders and
collect references in different ways, and neither shows in a plan.
-/
namespace PagePipes

/-! ## Matching in memory -/

namespace MemoryStore

variable {s : MemoryStore} {u : Url} {k : Key}

/-- Some rule of the index attaches the pipe to the page. -/
def RuledTo (s : MemoryStore) (u : Url) (k : Key) : Prop :=
  ∃ (j : Key) (x : Rule), s.index.rules[j]? = some x ∧ k ∈ x.pipes ∧ x.applies u = true

theorem mem_matchedKeys : k ∈ s.matchedKeys u ↔ s.RuledTo u k ∧ k ∉ s.disabled := by
  rw [matchedKeys, Std.ExtTreeSet.mem_ofList, List.contains_iff_mem]
  simp only [List.mem_flatMap, List.mem_filter, Prod.exists,
    Std.ExtTreeMap.mem_toList_iff_getElem?_eq_some, decide_eq_true_eq, RuledTo]
  constructor
  · rintro ⟨j, x, ⟨hx, happlies⟩, hk, hon⟩
    exact ⟨⟨j, x, hx, hk, happlies⟩, hon⟩
  · rintro ⟨⟨j, x, hx, hk, happlies⟩, hon⟩
    exact ⟨j, x, ⟨hx, happlies⟩, hk, hon⟩

/-- A page matches the enabled pipes that some rule attaches to it, each once. -/
theorem matched_spec (hlisted : ∀ (j : Key) (x : Rule), s.index.rules[j]? = some x →
    ∀ t ∈ x.pipes, t ∈ s.index.pipes) (u : Url) :
    ∃ ms, s.matched u = .ok ms ∧ (ms.map (·.name)).Nodup ∧ ∀ m, m ∈ ms ↔
      s.index.pipes[m.name]? = some m.pipe ∧ m.name ∉ s.disabled ∧ s.RuledTo u m.name := by
  obtain ⟨ms, hms⟩ : ∃ ms, s.matched u = .ok ms := by
    refine Result.mapM_succeeds fun k hk => ?_
    obtain ⟨⟨j, x, hx, hkx, -⟩, -⟩ := mem_matchedKeys.1 (Std.ExtTreeSet.mem_toList.1 hk)
    obtain ⟨p, hp⟩ := Lookup.exists_of_mem (hlisted j x hx k hkx)
    exact ⟨⟨k, p⟩, by rw [hp]⟩
  have hall : List.Forall₂ (fun (k : Key) (m : MatchedPipe) =>
      k = m.name ∧ s.index.pipes[k]? = some m.pipe) (s.matchedKeys u).toList ms := by
    refine (Result.mapM_eq_ok.1 hms).imp fun k m hm => ?_
    split at hm
    · next p hp =>
      cases hm
      exact ⟨rfl, hp⟩
    · cases hm
  refine ⟨ms, hms, ?_, fun m => ?_⟩
  · have hnames : (s.matchedKeys u).toList.map id = ms.map (·.name) :=
      Result.map_eq_of_forall₂ hall fun _ _ h => h.1
    rw [← hnames, List.map_id]
    exact Std.ExtTreeSet.distinct_toList.imp fun h heq => h (by simp [heq])
  · have hreads : ∀ (k : Key) (p q : Pipe), s.index.pipes[k]? = some p → s.index.pipes[k]? = some q →
        p = q := fun k p q hp hq => Option.some.inj (hp.symm.trans hq)
    rw [Database.Sound.mem_matched hreads hall]
    constructor
    · rintro ⟨k, hk, rfl, hp⟩
      obtain ⟨hruled, hon⟩ := mem_matchedKeys.1 (Std.ExtTreeSet.mem_toList.1 hk)
      exact ⟨hp, hon, hruled⟩
    · rintro ⟨hp, hon, hruled⟩
      exact ⟨m.name, Std.ExtTreeSet.mem_toList.2 (mem_matchedKeys.2 ⟨hruled, hon⟩), rfl, hp⟩

end MemoryStore

/-! ## Agreement -/

/-- A store in memory and a database that hold the same pipes and rules and the same switches. -/
structure MemoryStore.Agrees (s : MemoryStore) (db : Database) : Prop where
  sound : db.Sound
  plans : s.plans = [] ∧ db.plans = []
  decodes : ∀ (k : Key) (p : Pipe), s.index.pipes[k]? = some p →
    Decoder.ofText Pipe.decoder p.toJson.compact = .ok p
  pipes : ∀ row : PipeRow, row ∈ db.pipes ↔ ∃ p, s.index.pipes[row.key]? = some p ∧
    row.spec = p.toJson.compact ∧ row.disabled = decide (row.key ∈ s.disabled)
  rules : ∀ (k : Key) (x : Rule), s.index.rules[k]? = some x →
    x.predicate.Settled ∧ ∀ t ∈ x.pipes, t ∈ s.index.pipes
  links : ∀ l : Link, l ∈ db.links ↔ ∃ k x, s.index.rules[k]? = some x ∧
    l.condition = x.predicate.condition ∧ l.owner = some k ∧ l.pipe ∈ x.pipes

/-- Switches a pipe on or off; one that is not there is passed over. -/
def MemoryStore.switch (s : MemoryStore) (e : Key × Bool) : MemoryStore :=
  match s.setDisabled e.1 e.2 with
  | .ok next => next
  | .error _ => s

def Database.switch (db : Database) (e : Key × Bool) : Database :=
  match db.setDisabled e.1 e.2 with
  | .ok (next, _) => next
  | .error _ => db

namespace MemoryStore.Agrees

variable {s : MemoryStore} {db : Database} {u : Url} {k : Key}

theorem start {ix : Index} (hb : ix.Built)
    (hread : ∀ (k : Key) (r : Resource), ix.resources[k]? = some r → r.AsRead)
    (hs : MemoryStore.ofIndex ix = .ok s) {fresh : Nat → Uuid} {ids : List Key}
    (hdb : Database.empty.putIndex fresh ix = .ok (db, ids))
    (hdecodes : ∀ (k : Key) (p : Pipe), s.index.pipes[k]? = some p →
      Decoder.ofText Pipe.decoder p.toJson.compact = .ok p) : s.Agrees db := by
  obtain ⟨out, hout, hs⟩ := Result.bind_eq_ok.1 hs
  cases Result.pure_eq_ok.1 hs
  have hc := hb.coherent
  have hcout := hc.qualified hout
  obtain ⟨hmirrors, hall⟩ := Database.Mirrors.putIndex hc hout hdb
  refine ⟨Database.Sound.empty.putIndex hc hread hdb, ⟨rfl, hmirrors.plans⟩, hdecodes, fun row => ?_,
    fun k x hx => ?_, fun l => ?_⟩
  · rw [hmirrors.pipes]
    constructor
    · rintro ⟨-, p, hp, hrow⟩
      rw [hrow]
      exact ⟨p, hp, rfl, by simp⟩
    · rintro ⟨p, hp, hspec, hon⟩
      refine ⟨hall _ (hcout.mem_resources_of_pipes (Lookup.mem hp)), p, hp, ?_⟩
      obtain ⟨key, spec, disabled⟩ := row
      simp_all
  · obtain ⟨r, hr, hspec⟩ := hcout.exists_of_rules hx
    have hnormal := Database.Sound.asRead_of_qualified hc hread hout hr
    obtain ⟨-, -, hvalid⟩ := Resource.validate_eq_ok.1 (hcout.valid hr)
    obtain ⟨-, hlisted⟩ := Index.pointed_of_qualified hc hout hr
    rw [Resource.AsRead, hspec] at hnormal
    rw [hspec] at hvalid
    rw [Resource.references, hspec] at hlisted
    exact ⟨⟨hnormal, hvalid⟩, hlisted⟩
  · rw [hmirrors.links]
    constructor
    · rintro ⟨k, -, hlink⟩
      exact ⟨k, hlink⟩
    · rintro ⟨k, x, hx, hlink⟩
      obtain ⟨r, hr, -⟩ := hcout.exists_of_rules hx
      exact ⟨k, hall k (Lookup.mem hr), x, hx, hlink⟩

theorem stores_iff (h : s.Agrees db) : db.Stores k ↔ k ∈ s.index.pipes := by
  constructor
  · rintro ⟨row, hrow, rfl⟩
    obtain ⟨p, hp, -⟩ := (h.pipes row).1 hrow
    exact Lookup.mem hp
  · intro hk
    obtain ⟨p, hp⟩ := Lookup.exists_of_mem hk
    exact ⟨⟨k, p.toJson.compact, decide (k ∈ s.disabled)⟩, (h.pipes _).2 ⟨p, hp, rfl, rfl⟩, rfl⟩

theorem mem_switched {k j : Key} {disabled : Bool} :
    j ∈ (if disabled then s.disabled.insert k else s.disabled.erase k) ↔
      if j = k then disabled = true else j ∈ s.disabled := by
  by_cases hj : j = k
  · cases disabled <;> simp [hj]
  · cases disabled <;> simp [hj, Ne.symm hj]

/-- A switch succeeds in both stores or in neither, and keeps them in agreement. -/
theorem switch (h : s.Agrees db) (hk : k.isQualified = true) (disabled : Bool) :
    (s.switch (k, disabled)).Agrees (db.switch (k, disabled)) := by
  rw [MemoryStore.switch, Database.switch, MemoryStore.setDisabled]
  by_cases hmem : k ∈ s.index.pipes
  · have hdb : db.setDisabled k disabled = .ok (_, k) := Database.setDisabled_eq_ok.2
      ⟨(Database.resolve_qualified hk).2 ⟨h.stores_iff.2 hmem, rfl⟩, rfl⟩
    rw [if_pos hmem, hdb]
    refine ⟨h.sound.setDisabled hdb, h.plans, h.decodes, fun row => ?_, h.rules, h.links⟩
    simp only [List.mem_map, mem_switched]
    constructor
    · rintro ⟨r, hr, rfl⟩
      obtain ⟨p, hp, hspec, hdisabled⟩ := (h.pipes r).1 hr
      by_cases hrk : r.key = k
      · subst hrk
        simp [hp, hspec]
      · simp [hrk, hp, hspec, hdisabled]
    · rintro ⟨p, hp, hspec, hdisabled⟩
      refine ⟨⟨row.key, row.spec, decide (row.key ∈ s.disabled)⟩,
        (h.pipes _).2 ⟨p, hp, hspec, rfl⟩, ?_⟩
      obtain ⟨key, spec, off⟩ := row
      by_cases hrk : key = k <;> simp_all
  · have hdb : ∀ next, db.setDisabled k disabled ≠ .ok next := by
      rintro ⟨next, t⟩ hnext
      have hresolve := (Database.setDisabled_eq_ok.1 hnext).1
      exact hmem (h.stores_iff.1 ((Database.resolve_qualified hk).1 hresolve).1)
    rw [if_neg hmem]
    cases hnext : db.setDisabled k disabled with
    | error e => exact h
    | ok next => exact absurd hnext (hdb next)

theorem switchAll (h : s.Agrees db) {switches : List (Key × Bool)}
    (hq : ∀ e ∈ switches, e.1.isQualified = true) :
    (switches.foldl MemoryStore.switch s).Agrees (switches.foldl Database.switch db) := by
  induction switches generalizing s db with
  | nil => exact h
  | cons e rest ih =>
    obtain ⟨he, hrest⟩ := List.forall_mem_cons.1 hq
    exact ih (h.switch he e.2) hrest

theorem index_switchAll (s : MemoryStore) (switches : List (Key × Bool)) :
    (switches.foldl MemoryStore.switch s).index = s.index := by
  induction switches generalizing s with
  | nil => rfl
  | cons e rest ih =>
    rw [List.foldl_cons, ih, MemoryStore.switch, MemoryStore.setDisabled]
    by_cases he : e.1 ∈ s.index.pipes
    · rw [if_pos he]
    · rw [if_neg he]

/-! ## What agreeing stores answer -/

theorem table_eq (h : s.Agrees db) (k : Key) : db.table[k]? = s.index.pipes[k]? := by
  apply Option.ext
  intro p
  rw [h.sound.tabulates.getElem?]
  constructor
  · rintro ⟨row, hrow, rfl, hp⟩
    obtain ⟨q, hq, hspec, -⟩ := (h.pipes row).1 hrow
    rw [PipeRow.pipe, hspec, h.decodes _ q hq] at hp
    exact hq.trans (congrArg some (Except.ok.inj hp))
  · intro hp
    refine ⟨⟨k, p.toJson.compact, decide (k ∈ s.disabled)⟩, (h.pipes _).2 ⟨p, hp, rfl, rfl⟩, rfl, ?_⟩
    exact h.decodes k p hp

theorem linksTo_iff (h : s.Agrees db) : db.LinksTo u k ↔ s.RuledTo u k := by
  constructor
  · rintro ⟨l, hl, rfl, happlies⟩
    obtain ⟨j, x, hx, hcondition, -, hk⟩ := (h.links l).1 hl
    rw [hcondition, Predicate.applies_condition (h.rules j x hx).1] at happlies
    exact ⟨j, x, hx, hk, Except.ok.inj happlies⟩
  · rintro ⟨j, x, hx, hk, happlies⟩
    refine ⟨⟨k, x.predicate.condition, some j⟩, (h.links _).2 ⟨j, x, hx, rfl, rfl, hk⟩, rfl, ?_⟩
    rw [Predicate.applies_condition (h.rules j x hx).1]
    exact congrArg _ happlies

/-- The same pipes match a page in both stores, each once. -/
theorem matched (h : s.Agrees db) (u : Url) :
    ∃ ms ms', db.matched u = .ok ms ∧ s.matched u = .ok ms' ∧ (ms.map (·.name)).Nodup ∧
      (ms'.map (·.name)).Nodup ∧ (∀ m, m ∈ ms ↔ m ∈ ms') ∧
        ∀ m ∈ ms, s.index.pipes[m.name]? = some m.pipe := by
  obtain ⟨ms, hms, hnodup, hmem⟩ := h.sound.matched u
  obtain ⟨ms', hms', hnodup', hmem'⟩ := MemoryStore.matched_spec (fun j x hx => (h.rules j x hx).2) u
  have hstored : ∀ m : MatchedPipe, (∃ row ∈ db.pipes, row.key = m.name ∧ row.disabled = false ∧
      row.pipe = .ok m.pipe) ↔ s.index.pipes[m.name]? = some m.pipe ∧ m.name ∉ s.disabled := by
    intro m
    constructor
    · rintro ⟨row, hrow, hkey, hon, hp⟩
      have htable := (h.sound.tabulates.getElem? _ _).2 ⟨row, hrow, hkey, hp⟩
      obtain ⟨q, -, -, hdisabled⟩ := (h.pipes row).1 hrow
      refine ⟨(h.table_eq m.name).symm.trans htable, ?_⟩
      simpa [hon, hkey] using hdisabled
    · rintro ⟨hp, hon⟩
      refine ⟨⟨m.name, m.pipe.toJson.compact, false⟩, (h.pipes _).2 ⟨_, hp, rfl, by simp [hon]⟩, rfl,
        rfl, h.decodes _ _ hp⟩
  refine ⟨ms, ms', hms, hms', hnodup, hnodup', fun m => ?_, fun m hm => ?_⟩
  · rw [hmem, hmem', hstored, h.linksTo_iff, and_assoc]
  · exact ((hstored m).1 ((hmem m).1 hm).1).1

theorem serves (h : s.Agrees db) : s.source.Serves fun k => s.index.pipes[k]? where
  referenced k p hp := by
    have hclosed : Index.Closed s.index.pipes := fun k p hp ref href => by
      have hmem := h.sound.closed k p ((h.table_eq k).trans hp) ref href
      obtain ⟨q, hq⟩ := Lookup.exists_of_mem hmem
      exact Lookup.mem ((h.table_eq ref).symm.trans hq)
    obtain ⟨m, hm⟩ := Index.referencedPipes_succeeds hclosed hp
    exact ⟨m, hm, Index.referencedPipes_eq_ok hp hm⟩
  ranked := by simpa only [h.table_eq] using h.sound.ranked

end MemoryStore.Agrees

namespace MemoryStore

def title : Resource := .ofSpec "title" (.pipe ⟨[.ofKind .document], {}⟩)

def titlePageEverywhere : List Resource :=
  [title,
    .ofSpec "page" (.pipe ⟨[.pipe (.bare "title")], {}⟩),
    .ofSpec "everywhere" (.rule ⟨⟨none, none, true⟩, [], [.bare "title", .bare "page"]⟩)]

end MemoryStore
end PagePipes
