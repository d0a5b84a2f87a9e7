import PagePipes.Index.Edit
import PagePipes.Proofs.Index.BareNames

set_option autoImplicit false

/-!
# Indexes after edits

An index that additions and removals are made to in place has consistent maps after every list of
them, failed additions among them. An addition that fails has written nothing. What a bare name
resolves to depends on the pipes of that name alone.
-/
namespace PagePipes.Index

variable {ix : Index} {r : Resource} {k : Key}

/-! ## Edits in place -/

/-- An addition in place answers and leaves what the addition does; where it fails, it has written
nothing. -/
theorem run_addInPlace (ix : Index) (r : Resource) : (addInPlace r).run.run ix =
    match ix.add r with
    | .ok (next, k) => (.ok k, next)
    | .error e => (.error e, ix) := by
  cases hv : r.validate with
  | error e =>
    rw [addInPlace, add, hv]
    rfl
  | ok =>
    have hrun : (addInPlace r).run.run ix = (settle r ix.resources[r.key]?).run.run ix := by
      rw [addInPlace, hv]
      rfl
    rw [hrun, add, hv, Result.ok_bind]
    dsimp only
    cases ix.resources[r.key]? with
    | none => rfl
    | some existing =>
      by_cases h : existing = r
      · simp only [settle, if_pos h]
        rfl
      · simp only [settle, if_neg h]
        rfl

theorem run_removeInPlace (ix : Index) (k : Key) :
    (removeInPlace k).run ix = ((ix.remove k).2, (ix.remove k).1) := by
  unfold removeInPlace remove
  simp only [StateT.run_bind, StateT.run_get, pure_bind]
  cases ix.resources[k]? <;> rfl

theorem Built.inPlace (h : Built ix) (e : Edit) : Built (e.inPlace.run ix).2 := by
  cases e with
  | add r =>
    have hrun : ((Edit.add r).inPlace.run ix).2 = ((addInPlace r).run.run ix).2 := rfl
    rw [hrun, run_addInPlace]
    cases ha : ix.add r with
    | error e => exact h
    | ok next => exact h.add ha
  | remove k =>
    have hrun : ((Edit.remove k).inPlace.run ix).2 = ((removeInPlace k).run ix).2 := rfl
    rw [hrun, run_removeInPlace]
    exact h.remove k

theorem built_ofEdits (es : List Edit) : Built (ofEdits es) := by
  have hrun : ∀ ix, Built ix → Built ((es.forM Edit.inPlace).run ix).2 := by
    induction es with
    | nil => exact fun ix h => h
    | cons e es ih => exact fun ix h => ih _ (h.inPlace e)
  exact hrun .empty .empty

/-! ## Consistent maps -/

/-- The maps of an index agree: resources stand under their own keys, the maps by kind are disjoint and
hold the specs of the resources of their kind, and the map by name holds the keys of each name. -/
structure Consistent (ix : Index) : Prop where
  keyed : ∀ (k : Key) (r : Resource), ix.resources[k]? = some r → r.key = k
  pipes : ∀ (k : Key) (p : Pipe), ix.pipes[k]? = some p ↔
    ∃ r : Resource, ix.resources[k]? = some r ∧ r.spec = .pipe p
  views : ∀ (k : Key) (v : View), ix.views[k]? = some v ↔
    ∃ r : Resource, ix.resources[k]? = some r ∧ r.spec = .view v
  rules : ∀ (k : Key) (x : Rule), ix.rules[k]? = some x ↔
    ∃ r : Resource, ix.resources[k]? = some r ∧ r.spec = .rule x
  disjoint : ∀ k, ¬ (k ∈ ix.pipes ∧ k ∈ ix.views) ∧ ¬ (k ∈ ix.pipes ∧ k ∈ ix.rules) ∧
    ¬ (k ∈ ix.views ∧ k ∈ ix.rules)
  covered : ∀ k, k ∈ ix.resources ↔ k ∈ ix.pipes ∨ k ∈ ix.views ∨ k ∈ ix.rules
  digests : ∀ n k, k ∈ ix.keysOf n ↔ k ∈ ix.resources ∧ k.name = n
  hasName : ∀ n, n ∈ ix.names ↔ ix.keysOf n ≠ ∅

theorem mem_iff_exists {α : Type} {m : Key.Map α} : k ∈ m ↔ ∃ a, m[k]? = some a :=
  ⟨Lookup.exists_of_mem, fun ⟨_, h⟩ => Lookup.mem h⟩

theorem Coherent.getElem?_views (hc : Coherent ix) {v : View} :
    ix.views[k]? = some v ↔ ∃ r, ix.resources[k]? = some r ∧ r.spec = .view v := by
  rw [hc.views_eq, Option.bind_eq_some_iff]
  refine exists_congr fun r => and_congr_right fun _ => ?_
  cases hs : r.spec <;> simp [Resource.view?, hs]

theorem Coherent.getElem?_rules (hc : Coherent ix) {x : Rule} :
    ix.rules[k]? = some x ↔ ∃ r, ix.resources[k]? = some r ∧ r.spec = .rule x := by
  rw [hc.rules_eq, Option.bind_eq_some_iff]
  refine exists_congr fun r => and_congr_right fun _ => ?_
  cases hs : r.spec <;> simp [Resource.rule?, hs]

theorem Coherent.mem_names (hc : Coherent ix) (n : String) : n ∈ ix.names ↔ ix.keysOf n ≠ ∅ := by
  rw [keysOf]
  constructor
  · intro h
    obtain ⟨keys, hkeys⟩ := Lookup.exists_of_mem h
    rw [hkeys]
    rintro rfl
    exact hc.names_ne n hkeys
  · intro h
    cases hkeys : ix.names[n]? with
    | none => simp [hkeys] at h
    | some keys => exact Lookup.mem hkeys

theorem Coherent.consistent (hc : Coherent ix) : Consistent ix where
  keyed _ _ := hc.key_eq
  pipes _ _ := hc.getElem?_pipes
  views _ _ := hc.getElem?_views
  rules _ _ := hc.getElem?_rules
  disjoint k := by
    simp only [mem_iff_exists, hc.getElem?_pipes, hc.getElem?_views, hc.getElem?_rules]
    grind
  covered k := by
    simp only [mem_iff_exists, hc.getElem?_pipes, hc.getElem?_views, hc.getElem?_rules]
    constructor
    · rintro ⟨r, hr⟩
      cases hs : r.spec with
      | pipe p => exact .inl ⟨p, r, hr, hs⟩
      | view v => exact .inr (.inl ⟨v, r, hr, hs⟩)
      | rule x => exact .inr (.inr ⟨x, r, hr, hs⟩)
    · rintro (⟨_, r, hr, -⟩ | ⟨_, r, hr, -⟩ | ⟨_, r, hr, -⟩) <;> exact ⟨r, hr⟩
  digests _ _ := hc.mem_keysOf
  hasName := hc.mem_names

/-- After every list of edits, made in place, the maps of the index agree and every bare name resolves
to the only pipe that has it. An addition that fails has written to no map. One that succeeds has its
resource under its key, and adding a resource that is there already changes nothing. -/
theorem ofEdits_consistent (es : List Edit) : Consistent (ofEdits es) ∧
    (∀ n, ResolvesPipes (ofEdits es) n) ∧
    (∀ r e, (ofEdits es).add r = .error e →
      (addInPlace r).run.run (ofEdits es) = (.error e, ofEdits es)) ∧
    (∀ r k next, (ofEdits es).add r = .ok (next, k) →
      (addInPlace r).run.run (ofEdits es) = (.ok k, next) ∧ next.resources[k]? = some r) ∧
    ∀ (r : Resource) (k : Key), (ofEdits es).resources[k]? = some r →
      (ofEdits es).add r = .ok (ofEdits es, k) := by
  have hc := (built_ofEdits es).coherent
  refine ⟨hc.consistent, hc.resolvesPipes, fun r e h => ?_, fun r k next h => ⟨?_, ?_⟩, fun r k h => ?_⟩
  · rw [run_addInPlace, h]
  · rw [run_addInPlace, h]
  · exact (resources_of_add h).1
  · obtain rfl := hc.key_eq h
    exact add_eq_ok.2 ⟨hc.valid h, rfl, .inl ⟨h, rfl⟩⟩

end PagePipes.Index
