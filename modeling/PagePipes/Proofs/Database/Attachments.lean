import PagePipes.Proofs.Database.Matching

set_option autoImplicit false

/-!
# Rules own their attachments

A pipe is attached to a predicate by every stored rule resource that lists it, and by the rules
interface from a call that creates the rule until one that deletes it. Conditions are shared, but
each link belongs to the one that made it: what a page matches depends on the rule resources that are
stored and on the calls to the rules interface alone.
-/
namespace PagePipes.Database

variable {db next : Database} {u : Uuid} {k p : Key} {c : Change} {cs : List Change} {π : Predicate}

/-- The change makes a rule with the predicate, through the rules interface, that lists the pipe. -/
def Attaches (db : Database) (c : Change) (π : Predicate) (p : Key) : Prop :=
  ∃ r next q, c = .createRule r ∧ db.createRule r = .ok (next, q) ∧ q.predicate = π ∧ p ∈ q.pipes

/-- The change deletes a rule with the predicate, through the rules interface, that lists the pipe. -/
def Detaches (db : Database) (c : Change) (π : Predicate) (p : Key) : Prop :=
  ∃ r next q, c = .deleteRule r ∧ db.deleteRule r = .ok next ∧
    db.qualifyRule r.normalized = .ok q ∧ q.predicate = π ∧ p ∈ q.pipes

/-- Some change attached the pipe to the predicate, and no later one detached it. -/
def Attached (cs : List Change) (π : Predicate) (p : Key) : Prop :=
  ∃ before c after, cs = before ++ c :: after ∧ Attaches (ofChanges before) c π p ∧
    ∀ between d rest, after = between ++ d :: rest →
      ¬ Detaches (ofChanges (before ++ c :: between)) d π p

theorem attached_concat : Attached (cs ++ [c]) π p ↔
    Attaches (ofChanges cs) c π p ∨ (Attached cs π p ∧ ¬ Detaches (ofChanges cs) c π p) := by
  constructor
  · rintro ⟨before, a, after, hsplit, hattaches, hkept⟩
    induction after using List.reverseRecOn with
    | nil =>
      obtain ⟨rfl, rfl⟩ := List.append_singleton_inj.1 hsplit
      exact .inl hattaches
    | append_singleton after d _ =>
      rw [← List.cons_append, ← List.append_assoc] at hsplit
      obtain ⟨rfl, rfl⟩ := List.append_singleton_inj.1 hsplit
      refine .inr ⟨⟨before, a, after, rfl, hattaches, fun between d rest hafter => ?_⟩, hkept after c [] rfl⟩
      exact hkept between d (rest ++ [c]) (by rw [hafter]; simp)
  · rintro (hattaches | ⟨⟨before, a, after, rfl, hattaches, hkept⟩, hnot⟩)
    · exact ⟨cs, c, [], rfl, hattaches, by simp⟩
    · refine ⟨before, a, after ++ [c], by simp, hattaches, fun between d rest hafter => ?_⟩
      induction rest using List.reverseRecOn with
      | nil =>
        obtain ⟨rfl, rfl⟩ := List.append_singleton_inj.1 hafter
        exact hnot
      | append_singleton rest e _ =>
        rw [← List.cons_append, ← List.append_assoc] at hafter
        exact hkept between d rest (List.append_singleton_inj.1 hafter).1

/-! ## Links of the rules interface -/

/-- The links without an owner are the same in both databases. -/
def SameFree (db next : Database) : Prop :=
  ∀ l : Link, l.owner = none → (l ∈ next.links ↔ l ∈ db.links)

theorem SameFree.refl (db : Database) : SameFree db db := fun _ _ => Iff.rfl

theorem SameFree.trans {last : Database} (h : SameFree db next) (h' : SameFree next last) :
    SameFree db last := fun l hl => (h' l hl).trans (h l hl)

theorem sameFree_createResource {r : Resource} (h : db.createResource u r = .ok (next, k)) :
    SameFree db next := by
  obtain ⟨-, q, -, -, ⟨rfl, -⟩ | ⟨-, hcreated⟩⟩ := createResource_eq_ok h
  · exact .refl _
  · cases hcreated with
    | @pipe p hq =>
      obtain ⟨pipes, heq⟩ := insertPipe_frame db q.key p
      rw [heq]
      exact .refl db
    | view hq hv =>
      obtain ⟨views, viewPipes, objects, rfl⟩ := insertView_frame hv
      exact .refl db
    | rule hq hstored hlinks =>
      intro l hl
      simp [hlinks, hl]

theorem sameFree_deleteResource (h : db.deleteResource k = .ok next) : SameFree db next := by
  obtain ⟨row, -, hdeleted⟩ := deleteResource_eq_ok h
  cases hdeleted with
  | pipe => exact .refl db
  | view => exact .refl db
  | rule _ hlinks =>
    intro l hl
    simp [hlinks, hl]

theorem sameFree_createAll {ix : Index} {fresh : Nat → Uuid} {n : Nat} {keys ids : List Key}
    (h : createAll ix fresh n db keys = .ok (next, ids)) : SameFree db next :=
  createAll_keeps (.refl db) (fun _ _ _ _ _ _ _ _ hsame h =>
    hsame.trans (sameFree_createResource h)) h

/-- Every change but those of the rules interface leaves the links without an owner as they are. -/
theorem sameFree_of_leads (h : Change.Leads db c next) (hcreate : ∀ r, c ≠ .createRule r)
    (hdelete : ∀ r, c ≠ .deleteRule r) : SameFree db next := by
  cases h with
  | createResource h => exact sameFree_createResource h
  | deleteResource h => exact sameFree_deleteResource h
  | putIndex _ h =>
    obtain ⟨q, -, -, hall⟩ := putIndex_eq_ok.1 h
    exact sameFree_createAll hall
  | setDisabled h =>
    obtain ⟨-, rfl⟩ := setDisabled_eq_ok.1 h
    exact .refl db
  | createRule => exact absurd rfl (hcreate _)
  | deleteRule => exact absurd rfl (hdelete _)
  | createView h =>
    obtain ⟨views, viewPipes, objects, rfl⟩ := createView_frame h
    exact .refl db
  | trigger h =>
    obtain ⟨plans, rfl⟩ := trigger_frame h
    exact .refl db
  | exchange h =>
    obtain ⟨events, objects, plans, rfl⟩ := exchange_frame h
    exact .refl db

theorem free_link_of_createRule {r q : Rule} (h : db.createRule r = .ok (next, q)) {l : Link}
    (hl : l.owner = none) : l ∈ next.links ↔
      (∃ π, Attaches db (.createRule r) π l.pipe ∧ l.condition = π.condition) ∨ l ∈ db.links := by
  obtain ⟨-, -, -, conditions, links, hnext, hlinks⟩ := createRule_eq_ok h
  have hattaches : (∃ π, Attaches db (.createRule r) π l.pipe ∧ l.condition = π.condition) ↔
      l.condition = q.predicate.condition ∧ l.pipe ∈ q.pipes := by
    constructor
    · rintro ⟨π, ⟨r', next', q', hr, hok, rfl, hpipe⟩, hcondition⟩
      cases hr
      cases h.symm.trans hok
      exact ⟨hcondition, hpipe⟩
    · rintro ⟨hcondition, hpipe⟩
      exact ⟨_, ⟨r, next, q, rfl, h, rfl, hpipe⟩, hcondition⟩
  rw [hattaches, hnext, hlinks]
  simp [hl, or_comm]

theorem free_link_of_deleteRule {r : Rule} (h : db.deleteRule r = .ok next) {l : Link}
    (hl : l.owner = none) : l ∈ next.links ↔ l ∈ db.links ∧
      ¬ ∃ π, Detaches db (.deleteRule r) π l.pipe ∧ l.condition = π.condition := by
  obtain ⟨q, hq, conditions, links, hnext, hlinks⟩ := deleteRule_eq_ok h
  have hdetaches : (∃ π, Detaches db (.deleteRule r) π l.pipe ∧ l.condition = π.condition) ↔
      l.condition = q.predicate.condition ∧ l.pipe ∈ q.pipes := by
    constructor
    · rintro ⟨π, ⟨r', next', q', hr, -, hq', rfl, hpipe⟩, hcondition⟩
      cases hr
      cases hq.symm.trans hq'
      exact ⟨hcondition, hpipe⟩
    · rintro ⟨hcondition, hpipe⟩
      exact ⟨_, ⟨r, next, q, rfl, h, hq, rfl, hpipe⟩, hcondition⟩
  rw [hdetaches, hnext, hlinks]
  simp [hl]

theorem free_link_after (l : Link) (hl : l.owner = none) : l ∈ (Change.after db c).links ↔
    (∃ π, Attaches db c π l.pipe ∧ l.condition = π.condition) ∨
      (l ∈ db.links ∧ ¬ ∃ π, Detaches db c π l.pipe ∧ l.condition = π.condition) := by
  have hattaches : (∀ r, c ≠ .createRule r) ∨ (∀ next, ¬ Change.Leads db c next) →
      ∀ π, ¬ Attaches db c π l.pipe := by
    rintro h π ⟨r, next, q, hr, hmade, -⟩
    exact h.elim (fun h => h r hr) fun h => h next (hr ▸ .createRule hmade)
  have hdetaches : (∀ r, c ≠ .deleteRule r) ∨ (∀ next, ¬ Change.Leads db c next) →
      ∀ π, ¬ Detaches db c π l.pipe := by
    rintro h π ⟨r, next, q, hr, hmade, -⟩
    exact h.elim (fun h => h r hr) fun h => h next (hr ▸ .deleteRule hmade)
  obtain ⟨hfails, hsame⟩ | hleads := Change.after_cases db c
  · simp [hsame, hattaches (.inr hfails), hdetaches (.inr hfails)]
  · generalize Change.after db c = next at hleads ⊢
    have hother := sameFree_of_leads hleads
    cases hleads with
    | createRule h => simp [free_link_of_createRule h hl, hdetaches (.inl (by simp))]
    | deleteRule h => simp [free_link_of_deleteRule h hl, hattaches (.inl (by simp))]
    | _ =>
      have hsame := hother (by simp) (by simp) l hl
      simp [hsame, hattaches (.inl (by simp)), hdetaches (.inl (by simp))]

theorem Attaches.settled (h : Attaches db c π p) : π.Settled := by
  obtain ⟨r, next, q, -, hmade, rfl, -⟩ := h
  obtain ⟨hvalid, hpredicate, -⟩ := createRule_eq_ok hmade
  rw [hpredicate]
  exact ⟨r.predicate.normalized_normalized, hvalid⟩

theorem Attached.settled (h : Attached cs π p) : π.Settled := by
  obtain ⟨before, c, after, -, hattaches, -⟩ := h
  exact hattaches.settled

theorem Detaches.normalized (h : Detaches db c π p) : π.normalized = π := by
  obtain ⟨r, next, q, -, -, hq, rfl, -⟩ := h
  rw [(qualifyRule_eq_ok hq).1]
  exact r.predicate.normalized_normalized

/-- After any changes the links without an owner are the attachments of the rules interface. -/
theorem free_link_ofChanges (cs : List Change) (l : Link) (hl : l.owner = none) :
    l ∈ (ofChanges cs).links ↔ ∃ π, Attached cs π l.pipe ∧ l.condition = π.condition := by
  induction cs using List.reverseRecOn with
  | nil =>
    refine iff_of_false (by simp [ofChanges, empty]) ?_
    rintro ⟨π, ⟨before, c, after, h, -⟩, -⟩
    simp at h
  | append_singleton cs c ih =>
    rw [ofChanges_concat, free_link_after l hl, ih]
    constructor
    · rintro (⟨π, hattaches, hcondition⟩ | ⟨⟨π, hattached, hcondition⟩, hnot⟩)
      · exact ⟨π, attached_concat.2 (.inl hattaches), hcondition⟩
      · exact ⟨π, attached_concat.2 (.inr ⟨hattached, fun h => hnot ⟨π, h, hcondition⟩⟩), hcondition⟩
    · rintro ⟨π, hattached, hcondition⟩
      obtain hattaches | ⟨hattached, hnot⟩ := attached_concat.1 hattached
      · exact .inl ⟨π, hattaches, hcondition⟩
      · refine .inr ⟨⟨π, hattached, hcondition⟩, ?_⟩
        rintro ⟨ρ, hdetaches, hρ⟩
        have hsame := Predicate.condition_injective hattached.settled.normalized hdetaches.normalized
          (hcondition.symm.trans hρ)
        exact hnot (hsame ▸ hdetaches)

/-! ## What a page matches -/

/-- A link attaches a pipe to a page where a stored rule resource lists the pipe and applies, or a
predicate of the rules interface applies that the pipe is attached to. -/
theorem linksTo_iff (hread : ∀ c ∈ cs, c.AsRead) (url : Url) : (ofChanges cs).LinksTo url p ↔
    (∃ row ∈ (ofChanges cs).resources, row.kind = .rule ∧ ∃ r x, row.resource = .ok r ∧
      r.spec = .rule x ∧ p ∈ x.pipes ∧ x.applies url = true) ∨
    ∃ π, Attached cs π p ∧ π.applies url = true := by
  have hs := sound_ofChanges hread
  constructor
  · rintro ⟨l, hl, rfl, happlies⟩
    cases ho : l.owner with
    | none =>
      obtain ⟨π, hattached, hcondition⟩ := (free_link_ofChanges cs l ho).1 hl
      rw [hcondition, Predicate.applies_condition hattached.settled] at happlies
      exact .inr ⟨π, hattached, Except.ok.inj happlies⟩
    | some owner =>
      obtain ⟨row, hrow, rfl, hkind⟩ := hs.rules.owners l hl owner ho
      obtain ⟨x, ⟨metadata, hreads⟩, -, hsettled, -, hlinks⟩ := hs.rules.rules row hrow hkind
      obtain ⟨hcondition, hpipe⟩ := (hlinks l ho).1 hl
      rw [hcondition, Predicate.applies_condition hsettled] at happlies
      exact .inl ⟨row, hrow, hkind, _, x, hreads, rfl, hpipe, Except.ok.inj happlies⟩
  · rintro (⟨row, hrow, hkind, r, x, hreads, hspec, hpipe, happlies⟩ | ⟨π, hattached, happlies⟩)
    · obtain ⟨y, ⟨metadata, hreads'⟩, -, hsettled, -, hlinks⟩ := hs.rules.rules row hrow hkind
      cases hreads.symm.trans hreads'
      cases hspec
      refine ⟨⟨p, x.predicate.condition, some row.key⟩, (hlinks _ rfl).2 ⟨rfl, hpipe⟩, rfl, ?_⟩
      rw [Predicate.applies_condition hsettled]
      exact congrArg Except.ok happlies
    · refine ⟨⟨p, π.condition, none⟩, (free_link_ofChanges cs _ rfl).2 ⟨π, hattached, rfl⟩, rfl, ?_⟩
      rw [Predicate.applies_condition hattached.settled, happlies]

/-- After any changes a page matches just the pipes that are stored and enabled and that some
attachment to a predicate which applies to the page is left of: a stored rule resource lists the
pipe, or the rules interface attached it and did not detach it since. -/
theorem matched_iff_attached (cs : List Change) (hread : ∀ c ∈ cs, c.AsRead) (url : Url) :
    ∃ ms, (ofChanges cs).matched url = .ok ms ∧ ∀ p, (∃ m ∈ ms, m.name = p) ↔
      (∃ row ∈ (ofChanges cs).pipes, row.key = p ∧ row.disabled = false) ∧
        ((∃ row ∈ (ofChanges cs).resources, row.kind = .rule ∧ ∃ r x, row.resource = .ok r ∧
          r.spec = .rule x ∧ p ∈ x.pipes ∧ x.applies url = true) ∨
        ∃ π, Attached cs π p ∧ π.applies url = true) := by
  have hs := sound_ofChanges hread
  obtain ⟨ms, hms, -, hmem⟩ := hs.matched url
  refine ⟨ms, hms, fun p => ?_⟩
  rw [← linksTo_iff hread]
  constructor
  · rintro ⟨m, hm, rfl⟩
    obtain ⟨⟨row, hrow, hkey, hon, -⟩, hlinks⟩ := (hmem m).1 hm
    exact ⟨⟨row, hrow, hkey, hon⟩, hlinks⟩
  · rintro ⟨⟨row, hrow, rfl, hon⟩, hlinks⟩
    obtain ⟨q, hq, -⟩ := (hs.pipes.each row hrow).reads
    exact ⟨⟨row.key, q⟩, (hmem _).2 ⟨⟨row, hrow, rfl, hon, hq⟩, hlinks⟩, rfl⟩

/-- A rule resource and the rules interface attach one title to every page; then the resource goes. -/
def sharedCondition : List Change :=
  [.createResource ⟨1⟩ (.ofSpec "title" (.pipe ⟨[.ofKind .document], {}⟩)),
    .createResource ⟨2⟩ (.ofSpec "everywhere" (.rule ⟨⟨none, none, true⟩, [], [.bare "title"]⟩)),
    .createRule ⟨⟨none, none, true⟩, [], [.bare "title"]⟩,
    .deleteResource (.bare "everywhere")]

/-- What still matches is attached by the rules interface, since no rule resource is left. -/
theorem shared_condition_stays : (∀ c ∈ sharedCondition, c.AsRead) ∧
    ∃ url ms m, Trigger.parseUrl "http://example.com/" = .ok url ∧
      (ofChanges sharedCondition).matched url = .ok ms ∧ m ∈ ms ∧
        ∃ π, Attached sharedCondition π m.name ∧ π.applies url = true := by
  have hread : ∀ c ∈ sharedCondition, c.AsRead := by
    simp only [sharedCondition, List.mem_cons, List.not_mem_nil, or_false]
    rintro c (rfl | rfl | rfl | rfl)
    · exact List.forall_mem_singleton.2 (Action.readable_ofKind _)
    · exact rfl
    · trivial
    · trivial
  have hrun : (Trigger.parseUrl "http://example.com/").toOption.any (fun url =>
      ((ofChanges sharedCondition).matched url).toOption.any fun ms =>
        (ofChanges sharedCondition).resources.all (·.kind ≠ .rule) && !ms.isEmpty) = true := by
    decide +kernel
  obtain ⟨url, hurl, hrun⟩ := Result.exists_ok_of_any hrun
  obtain ⟨ms, hms, hrun⟩ := Result.exists_ok_of_any hrun
  simp only [Bool.and_eq_true, List.all_eq_true, decide_eq_true_eq, Bool.not_eq_true',
    List.isEmpty_eq_false_iff] at hrun
  obtain ⟨hnone, hne⟩ := hrun
  obtain ⟨m, hm⟩ := List.exists_mem_of_ne_nil ms hne
  obtain ⟨ms', hms', hall⟩ := matched_iff_attached sharedCondition hread url
  cases hms.symm.trans hms'
  obtain ⟨-, ⟨row, hrow, hkind, -⟩ | hattached⟩ := (hall m.name).1 ⟨m, hm, rfl⟩
  · exact absurd hkind (hnone row hrow)
  · exact ⟨hread, url, ms, m, hurl, hms, hm, hattached⟩

end PagePipes.Database
