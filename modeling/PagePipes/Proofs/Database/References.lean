import PagePipes.Proofs.Database.Matching

set_option autoImplicit false

/-!
# References stay stored

Whatever is done to a database, what its stored specs refer to stays there: a pipe that something
refers to cannot be removed, and a new pipe only refers to pipes that are there before it. So
references never lead around in a circle, and every page can be planned.
-/
namespace PagePipes.Database

variable {db : Database} {u : Uuid} {k t : Key}

/-- The stored pipe of one key refers to another key. -/
def RefersTo (db : Database) (k t : Key) : Prop := ∃ p, db.pipe k = .ok p ∧ t ∈ p.references

namespace Sound

theorem pipe_eq_ok (hs : db.Sound) {p : Pipe} (h : db.pipe k = .ok p) : db.table[k]? = some p := by
  unfold pipe at h
  cases hrow : db.pipeRow? k with
  | none => simp [hrow] at h
  | some row =>
    simp only [hrow] at h
    have hkey : row.key = k := by simpa using List.find?_some hrow
    exact (hs.tabulates.getElem? k p).2 ⟨row, List.mem_of_find?_eq_some hrow, hkey, h⟩

theorem not_refersTo_self (hs : db.Sound) : ¬ Relation.TransGen db.RefersTo k k := by
  obtain ⟨rank, hrank⟩ := hs.ranked
  have hstep : ∀ {k t}, db.RefersTo k t → rank t < rank k := by
    rintro k t ⟨p, hp, ht⟩
    obtain ⟨a, ha, hpipe, hat⟩ := Pipe.mem_references.1 ht
    obtain ⟨v, q, hv, -, hlt⟩ := (hrank k p (hs.pipe_eq_ok hp)).2 a ha hpipe
    cases hat.symm.trans hv
    exact hlt
  have hpath : ∀ {t}, Relation.TransGen db.RefersTo k t → rank t < rank k := by
    intro t h
    induction h with
    | single h => exact hstep h
    | tail _ h ih => exact (hstep h).trans ih
  exact fun h => lt_irrefl _ (hpath h)

theorem stores_of_viewRow (hs : db.Sound) {row : ViewRow} (hrow : row ∈ db.views) :
    ∃ v, row.view = .ok v ∧ ∀ k ∈ v.references, k.isQualified = true ∧ db.Stores k := by
  obtain ⟨v, hreads, -, -, hlinked⟩ := hs.views.each row hrow
  exact ⟨v, hreads, fun k hk => ⟨(hlinked k hk).1, hs.views.stored _ (hlinked k hk).2⟩⟩

/-- A rule resource owns a link to each of its pipes, and links lead to stored pipes. -/
theorem stores_of_ruleRow (hs : db.Sound) {row : ResourceRow} (hrow : row ∈ db.resources)
    (hkind : row.kind = .rule) : ∃ r x, row.resource = .ok r ∧ r.spec = .rule x ∧
      ∀ k ∈ x.pipes, k.isQualified = true ∧ db.Stores k := by
  obtain ⟨x, ⟨metadata, hreads⟩, -, -, hq, hlinks⟩ := hs.rules.rules row hrow hkind
  refine ⟨_, x, hreads, rfl, fun k hk => ⟨hq k hk, ?_⟩⟩
  have hl := (hlinks ⟨k, x.predicate.condition, some row.key⟩ rfl).2 ⟨rfl, hk⟩
  exact (hs.rules.sound _ hl).1

theorem trigger_succeeds (hs : db.Sound) {request : Trigger.Request} {url : Url}
    (hurl : Trigger.parseUrl request.url = .ok url) (hfresh : ∀ plan ∈ db.plans, plan.uuid ≠ u) :
    ∃ next response, db.trigger u request = .ok (next, response) := by
  obtain ⟨ms, s, log, -, -, htrigger⟩ := hs.trigger_eq hurl hfresh
  exact ⟨_, _, htrigger⟩

end Sound

/-- A page that refers to a title, and a rule for every page. Removing the title fails. -/
def titlePageRule : List Change :=
  [.createResource ⟨1⟩ (.ofSpec "title" (.pipe ⟨[.ofKind .document], {}⟩)),
    .createResource ⟨2⟩ (.ofSpec "page" (.pipe ⟨[.pipe (.bare "title")], {}⟩)),
    .deleteResource (.bare "title"),
    .createRule { predicate := { always := true }, pipes := [.bare "page"] }]

end PagePipes.Database
