import Mathlib.Logic.Relation
import PagePipes.Proofs.Database.Sound

set_option autoImplicit false

/-!
# Steps of a database

A list of changes comes to a chain of steps, each of which stores one resource or is one of the other
changes; an index is stored by one step for each of its resources. So what holds of the empty database
and is kept by every step of a sound database holds after all changes.
-/
namespace PagePipes.Database

/-- A resource is stored as it was read, or some other change succeeds. -/
inductive Step (db : Database) : Database → Prop
  | createResource {u r next k} (hr : Resource.AsRead r)
      (h : db.createResource u r = .ok (next, k)) : Step db next
  | deleteResource {k next} (h : db.deleteResource k = .ok next) : Step db next
  | setDisabled {k disabled next t} (h : db.setDisabled k disabled = .ok (next, t)) : Step db next
  | createRule {r next q} (h : db.createRule r = .ok (next, q)) : Step db next
  | deleteRule {r next} (h : db.deleteRule r = .ok next) : Step db next
  | createView {u v next stored} (h : db.createView u v = .ok (next, stored)) : Step db next
  | trigger {u request next response} (h : db.trigger u request = .ok (next, response)) :
      Step db next
  | exchange {time report next receipt} (h : db.exchange time report = .ok (next, receipt)) :
      Step db next

abbrev Steps : Database → Database → Prop := Relation.ReflTransGen Step

variable {db next : Database} {cs later : List Change} {c : Change}

theorem Step.sound (hs : db.Sound) (h : Step db next) : next.Sound := by
  cases h with
  | createResource hr h => exact hs.createResource hr h
  | deleteResource h => exact hs.deleteResource h
  | setDisabled h => exact hs.setDisabled h
  | createRule h => exact hs.createRule h
  | deleteRule h => exact hs.deleteRule h
  | createView h => exact hs.createView h
  | trigger h => exact hs.trigger h
  | exchange h => exact hs.exchange h

theorem Step.leads (h : Step db next) : ∃ c : Change, c.Leads db next := by
  cases h with
  | createResource _ h => exact ⟨_, .createResource h⟩
  | deleteResource h => exact ⟨_, .deleteResource h⟩
  | setDisabled h => exact ⟨_, .setDisabled h⟩
  | createRule h => exact ⟨_, .createRule h⟩
  | deleteRule h => exact ⟨_, .deleteRule h⟩
  | createView h => exact ⟨_, .createView h⟩
  | trigger h => exact ⟨_, .trigger h⟩
  | exchange h => exact ⟨_, .exchange h⟩

theorem steps_createAll {ix : Index} {fresh : Nat → Uuid} {n : Nat} {keys ids : List Key}
    (hread : ∀ k ∈ keys, ∀ r, ix.resources[k]? = some r → r.AsRead)
    (h : createAll ix fresh n db keys = .ok (next, ids)) : Steps db next :=
  createAll_keeps .refl (fun k hk r hr _ _ _ _ hsteps h =>
    hsteps.tail (.createResource (hread k hk r hr) h)) h

/-- A change fails, or is one step, or stores the resources of an index one after the other. -/
theorem after_cases_of_asRead (hc : c.AsRead) : Change.after db c = db ∨ Step db (Change.after db c) ∨
    ∃ us rs ix keys ids, c = .putIndex us rs ∧
      (∀ k ∈ keys, ∀ r, ix.resources[k]? = some r → r.AsRead) ∧
      createAll ix (fun n => us.getD n ⟨0⟩) 0 db keys = .ok (Change.after db c, ids) := by
  obtain ⟨-, hsame⟩ | hleads := Change.after_cases db c
  · exact .inl hsame
  · refine .inr ?_
    generalize Change.after db c = next at hleads
    cases hleads with
    | createResource h => exact .inl (.createResource hc h)
    | deleteResource h => exact .inl (.deleteResource h)
    | @putIndex us rs ix next ids hix h =>
      obtain ⟨hbuilt, hmem⟩ := Change.built_indexOf hix
      obtain ⟨q, hq, -, hall⟩ := putIndex_eq_ok.1 h
      refine .inr ⟨us, rs, q, q.traversal.emitted, ids, rfl, fun k _ r hr => ?_, hall⟩
      exact Sound.asRead_of_qualified hbuilt.coherent (fun k r hr => hc r (hmem k r hr)) hq hr
    | setDisabled h => exact .inl (.setDisabled h)
    | createRule h => exact .inl (.createRule h)
    | deleteRule h => exact .inl (.deleteRule h)
    | createView h => exact .inl (.createView h)
    | trigger h => exact .inl (.trigger h)
    | exchange h => exact .inl (.exchange h)

theorem steps_after (hc : c.AsRead) : Steps db (Change.after db c) := by
  obtain hsame | hstep | ⟨us, rs, ix, keys, ids, -, hread, hall⟩ := @after_cases_of_asRead db c hc
  · rw [hsame]
  · exact .single hstep
  · exact steps_createAll hread hall

/-- Later changes lead from one database to the other by steps. -/
theorem steps_ofChanges (h : ∀ c ∈ later, c.AsRead) :
    Steps (ofChanges cs) (ofChanges (cs ++ later)) := by
  induction later using List.reverseRecOn with
  | nil => rw [List.append_nil]
  | append_singleton later c ih =>
    rw [← List.append_assoc, ofChanges_concat]
    exact (ih fun d hd => h d (List.mem_append_left _ hd)).trans (steps_after (h c (by simp)))

/-- What a sound database has and every step keeps, every later database has. -/
theorem Steps.keeps {P : Database → Prop} (h : Steps db next) (hs : db.Sound) (hdb : P db)
    (hstep : ∀ {db next : Database}, db.Sound → P db → Step db next → P next) : P next := by
  suffices hboth : next.Sound ∧ P next from hboth.2
  induction h with
  | refl => exact ⟨hs, hdb⟩
  | tail _ hlast ih => exact ⟨hlast.sound ih.1, hstep ih.1 ih.2 hlast⟩

theorem ofChanges_keeps {P : Database → Prop} (h : ∀ c ∈ cs, c.AsRead) (hempty : P .empty)
    (hstep : ∀ {db next : Database}, db.Sound → P db → Step db next → P next) : P (ofChanges cs) := by
  have hsteps : Steps (ofChanges []) (ofChanges ([] ++ cs)) := steps_ofChanges h
  exact hsteps.keeps .empty hempty hstep

end PagePipes.Database
