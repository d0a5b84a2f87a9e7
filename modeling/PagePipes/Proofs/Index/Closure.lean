import Mathlib.Data.Multiset.AddSub
import Mathlib.Data.Finset.Card
import PagePipes.Proofs.Index.Coherent
import PagePipes.Proofs.Index.References
import PagePipes.Proofs.Pipe.Flattening
import PagePipes.Proofs.Pipe.Written
import PagePipes.Proofs.Repointing

set_option autoImplicit false

/-!
# Searching for references

A search meets what a pipe refers to, one reference after another and in any order. It always ends. If all
references that can be reached through indexed pipes name indexed pipes, it ends with just these pipes;
otherwise it cannot get past one that does not. Collecting references is one such search, so its answer is
that of every other one.
-/
namespace PagePipes.Index
open Relation Pipe

/-- The references that are still to be met, in no order, and the pipes met so far. -/
structure Search where
  pending : Multiset Key
  met : Key.Map Pipe

namespace Search

/-- Takes any of the pending references: one that was met before is passed over, and a new one has to name
a pipe of the map, whose references become pending as well. -/
inductive Step (pipes : Key.Map Pipe) : Search → Search → Prop
  | skip {k : Key} {pending : Multiset Key} {met : Key.Map Pipe} (hk : k ∈ met) :
      Step pipes ⟨k ::ₘ pending, met⟩ ⟨pending, met⟩
  | meet {k : Key} {p : Pipe} {pending : Multiset Key} {met : Key.Map Pipe} (hk : k ∉ met)
      (hp : pipes[k]? = some p) :
      Step pipes ⟨k ::ₘ pending, met⟩ ⟨p.references + pending, met.insert k p⟩

/-- The search for what a pipe refers to. -/
def start (p : Pipe) : Search := ⟨p.references, ∅⟩

variable {pipes : Key.Map Pipe} {s t : Search} {j k : Key} {p : Pipe}

/-! ## Every search ends -/

def unmet (pipes : Key.Map Pipe) (s : Search) : Finset Key := pipes.keys.toFinset.filter (· ∉ s.met)

theorem mem_unmet : k ∈ s.unmet pipes ↔ k ∈ pipes ∧ k ∉ s.met := by
  simp [unmet]

/-- A step leaves fewer pipes unmet, or the same ones and fewer references pending. -/
theorem Step.decreases (h : Step pipes s t) :
    Prod.Lex (· < ·) (· < ·) ((t.unmet pipes).card, t.pending.card)
      ((s.unmet pipes).card, s.pending.card) := by
  cases h with
  | skip hk => exact .right _ (by simp)
  | @meet k p pending met hk hp =>
    refine .left _ _ (Finset.card_lt_card (Finset.ssubset_iff_of_subset ?_ |>.2 ⟨k, ?_, ?_⟩))
    · intro j hj
      rw [mem_unmet, Std.ExtTreeMap.mem_insert, not_or] at hj
      exact mem_unmet.2 ⟨hj.1, hj.2.2⟩
    · exact mem_unmet.2 ⟨Lookup.mem hp, hk⟩
    · simp [mem_unmet]

theorem step_wellFounded : WellFounded fun t s => Step pipes s t :=
  Subrelation.wf (fun h => h.decreases) (InvImage.wf _ (WellFounded.prod_lex Nat.lt_wfRel.wf Nat.lt_wfRel.wf))

/-! ## What a search has met -/

/-- The search for what the pipe of a key refers to: it has met pipes of the map, everything met or pending
can be reached, and so far nothing was lost that the key or a pipe met leads to. -/
structure Follows (pipes : Key.Map Pipe) (k : Key) (s : Search) : Prop where
  met_eq : ∀ (j : Key) (q : Pipe), s.met[j]? = some q → pipes[j]? = some q
  reached : ∀ j, j ∈ s.met ∨ j ∈ s.pending → TransGen (LeadsTo pipes) k j
  kept : ∀ i, i = k ∨ i ∈ s.met → ∀ j, LeadsTo pipes i j → j ∈ s.met ∨ j ∈ s.pending

theorem leadsTo_iff (hp : pipes[k]? = some p) : LeadsTo pipes k j ↔ j ∈ p.references := by
  rw [mem_references, LeadsTo, hp]
  simp [Mentions]

theorem Follows.start (hp : pipes[k]? = some p) : Follows pipes k (start p) where
  met_eq j q h := by simp [Search.start] at h
  reached j h := by
    obtain h | h := h
    · simp [Search.start] at h
    · exact .single ((leadsTo_iff hp).2 h)
  kept i hi j hj := by
    obtain rfl | hi := hi
    · exact .inr ((leadsTo_iff hp).1 hj)
    · simp [Search.start] at hi

theorem Follows.step (hs : Follows pipes k s) (h : Step pipes s t) : Follows pipes k t := by
  cases h with
  | @skip i pending met hi =>
    refine ⟨hs.met_eq, fun j hj => hs.reached j (hj.imp_right Multiset.mem_cons_of_mem),
      fun l hl j hj => ?_⟩
    obtain hmet | hpending := hs.kept l hl j hj
    · exact .inl hmet
    · obtain rfl | hpending := Multiset.mem_cons.1 hpending
      · exact .inl hi
      · exact .inr hpending
  | @meet i p pending met hi hp =>
    have hreached : TransGen (LeadsTo pipes) k i := hs.reached i (.inr (Multiset.mem_cons_self _ _))
    refine ⟨fun j q hj => ?_, fun j hj => ?_, fun l hl j hj => ?_⟩
    · rw [Std.ExtTreeMap.getElem?_insert] at hj
      by_cases hij : i = j
      · simp only [hij, Std.compare_self, ↓reduceIte, Option.some.injEq] at hj
        rw [← hij, hp, hj]
      · exact hs.met_eq j q (by simpa [hij] using hj)
    · rw [Std.ExtTreeMap.mem_insert, Std.compare_eq_iff_eq, Multiset.mem_add, Multiset.mem_coe] at hj
      obtain (rfl | hj) | hj | hj := hj
      · exact hreached
      · exact hs.reached j (.inl hj)
      · exact hreached.tail ((leadsTo_iff hp).2 hj)
      · exact hs.reached j (.inr (Multiset.mem_cons_of_mem hj))
    · rw [Std.ExtTreeMap.mem_insert, Std.compare_eq_iff_eq] at hl ⊢
      rw [Multiset.mem_add, Multiset.mem_coe]
      by_cases hil : i = l
      · subst hil
        exact .inr (.inl ((leadsTo_iff hp).1 hj))
      · obtain hmet | hpending := hs.kept l (hl.imp_right fun h => h.resolve_left hil) j hj
        · exact .inl (.inr hmet)
        · obtain rfl | hpending := Multiset.mem_cons.1 hpending
          · exact .inl (.inl rfl)
          · exact .inr (.inr hpending)

theorem Follows.steps (hs : Follows pipes k s) (h : ReflTransGen (Step pipes) s t) : Follows pipes k t := by
  induction h with
  | refl => exact hs
  | tail _ hstep ih => exact ih.step hstep

/-- A search with nothing pending has met just what can be reached. -/
theorem Follows.mem_met_iff (hs : Follows pipes k s) (hdone : s.pending = 0) :
    j ∈ s.met ↔ TransGen (LeadsTo pipes) k j := by
  have hkept : ∀ i, i = k ∨ i ∈ s.met → ∀ j, LeadsTo pipes i j → j ∈ s.met := by
    intro i hi j hj
    simpa [hdone] using hs.kept i hi j hj
  refine ⟨fun hj => hs.reached j (.inl hj), fun hj => ?_⟩
  induction hj with
  | single hstep => exact hkept _ (.inl rfl) _ hstep
  | tail _ hstep ih => exact hkept _ (.inr ih) _ hstep

/-- Two searches with nothing pending have met the same pipes. -/
theorem Follows.eq_of_done (hs : Follows pipes k s) (ht : Follows pipes k t) (hsdone : s.pending = 0)
    (htdone : t.pending = 0) : s = t := by
  have hlookup : ∀ {s : Search}, Follows pipes k s → s.pending = 0 → ∀ (j : Key) (q : Pipe),
      s.met[j]? = some q ↔ TransGen (LeadsTo pipes) k j ∧ pipes[j]? = some q := by
    intro s hs hdone j q
    refine ⟨fun h => ⟨(hs.mem_met_iff hdone).1 (Lookup.mem h), hs.met_eq j q h⟩, fun ⟨hj, hq⟩ => ?_⟩
    obtain ⟨r, hr⟩ := Lookup.exists_of_mem ((hs.mem_met_iff hdone).2 hj)
    rw [hr, ← hs.met_eq j r hr, hq]
  have hmet : s.met = t.met := Std.ExtTreeMap.ext_getElem? fun j => Option.ext fun q => by
    rw [hlookup hs hsdone, hlookup ht htdone]
  cases s
  cases t
  simp_all

/-- Where all that can be reached is in the map, a search with something pending goes on. -/
theorem Follows.exists_step (hs : Follows pipes k s)
    (hclosed : ∀ j, TransGen (LeadsTo pipes) k j → j ∈ pipes) (hpending : s.pending ≠ 0) :
    ∃ t, Step pipes s t := by
  obtain ⟨pending, met⟩ := s
  obtain ⟨j, hj⟩ := Multiset.exists_mem_of_ne_zero hpending
  obtain ⟨rest, rfl⟩ := Multiset.exists_cons_of_mem hj
  by_cases hmet : j ∈ met
  · exact ⟨_, .skip hmet⟩
  · obtain ⟨p, hp⟩ := Lookup.exists_of_mem (hclosed j (hs.reached j (.inr hj)))
    exact ⟨_, .meet hmet hp⟩

end Search

open Search

variable {ix : Index} {pipes unmet met m : Key.Map Pipe} {stack : List Key} {j k : Key} {p : Pipe} {e : Error}

/-! ## Collecting is a search -/

theorem steps_of_collect (h : Collecting pipes unmet met stack) (hm : collect unmet met stack = .ok m) :
    ReflTransGen (Step pipes) ⟨stack, met⟩ ⟨0, m⟩ := by
  induction unmet, met, stack using collect.induct with
  | case1 unmet met =>
    cases collect_nil.symm.trans hm
    exact .refl
  | case2 unmet met k stack hk ih =>
    rw [collect_met hk] at hm
    rw [← Multiset.cons_coe]
    exact .head (.skip hk) (ih (h.skip hk) hm)
  | case3 unmet met k stack hk hp => cases (collect_missing hk hp).symm.trans hm
  | case4 unmet met k stack hk p hp ih =>
    rw [collect_unmet hk hp] at hm
    have hrest := ih (h.meet hk hp) hm
    rw [← Multiset.coe_add, Multiset.coe_reverse] at hrest
    rw [← Multiset.cons_coe]
    exact .head (.meet hk (by rw [← h.unmet_eq k hk, hp])) hrest

/-- Collecting fails in front of a reference that names no pipe of the map. -/
theorem stuck_of_collect (h : Collecting pipes unmet met stack) (he : collect unmet met stack = .error e) :
    ∃ s j, ReflTransGen (Step pipes) ⟨stack, met⟩ s ∧ j ∈ s.pending ∧ j ∉ pipes ∧
      e = .notFound ("referenced pipe not found: " ++ j.text) := by
  induction unmet, met, stack using collect.induct with
  | case1 unmet met => cases collect_nil.symm.trans he
  | case2 unmet met k stack hk ih =>
    rw [collect_met hk] at he
    obtain ⟨s, j, hsteps, hj⟩ := ih (h.skip hk) he
    rw [← Multiset.cons_coe]
    exact ⟨s, j, .head (.skip hk) hsteps, hj⟩
  | case3 unmet met k stack hk hp =>
    cases (collect_missing hk hp).symm.trans he
    have hnone : pipes[k]? = none := by rw [← h.unmet_eq k hk, hp]
    exact ⟨_, k, .refl, by simp, by simpa using hnone, rfl⟩
  | case4 unmet met k stack hk p hp ih =>
    rw [collect_unmet hk hp] at he
    obtain ⟨s, j, hsteps, hj⟩ := ih (h.meet hk hp) he
    rw [← Multiset.coe_add, Multiset.coe_reverse] at hsteps
    rw [← Multiset.cons_coe]
    exact ⟨s, j, .head (.meet hk (by rw [← h.unmet_eq k hk, hp])) hsteps, hj⟩

theorem referencedPipes_steps (hp : ix.pipes[k]? = some p) (hm : ix.referencedPipes k = .ok m) :
    ReflTransGen (Step ix.pipes) (start p) ⟨0, m⟩ := by
  simp only [referencedPipes, hp] at hm
  have hsteps := steps_of_collect Collecting.start hm
  rwa [Multiset.coe_reverse] at hsteps

theorem referencedPipes_stuck (hp : ix.pipes[k]? = some p) (he : ix.referencedPipes k = .error e) :
    ∃ s j, ReflTransGen (Step ix.pipes) (start p) s ∧ j ∈ s.pending ∧ j ∉ ix.pipes ∧
      e = .notFound ("referenced pipe not found: " ++ j.text) := by
  simp only [referencedPipes, hp] at he
  obtain ⟨s, j, hsteps, hj⟩ := stuck_of_collect Collecting.start he
  rw [Multiset.coe_reverse] at hsteps
  exact ⟨s, j, hsteps, hj⟩

/-! ## Reachable references -/

/-- References lead from the pipe of one key to another key, in one or more steps through indexed pipes. -/
def Reaches (ix : Index) : Key → Key → Prop := TransGen (LeadsTo ix.pipes)

theorem mem_referencedPipes (hp : ix.pipes[k]? = some p) (hm : ix.referencedPipes k = .ok m) :
    (∀ j, j ∈ m ↔ ix.Reaches k j) ∧ ∀ (j : Key) (q : Pipe), m[j]? = some q → ix.pipes[j]? = some q := by
  have hfollows := (Follows.start hp).steps (referencedPipes_steps hp hm)
  exact ⟨fun j => hfollows.mem_met_iff rfl, hfollows.met_eq⟩

theorem exists_of_referencedPipes_error (hp : ix.pipes[k]? = some p) (he : ix.referencedPipes k = .error e) :
    ∃ j, ix.Reaches k j ∧ j ∉ ix.pipes ∧ e = .notFound ("referenced pipe not found: " ++ j.text) := by
  obtain ⟨s, j, hsteps, hpending, hmissing, rfl⟩ := referencedPipes_stuck hp he
  exact ⟨j, ((Follows.start hp).steps hsteps).reached j (.inr hpending), hmissing, rfl⟩

theorem referencedPipes_succeeds_iff (hp : ix.pipes[k]? = some p) :
    (∃ m, ix.referencedPipes k = .ok m) ↔ ∀ j, ix.Reaches k j → j ∈ ix.pipes := by
  constructor
  · rintro ⟨m, hm⟩ j hj
    obtain ⟨hall, hpipes⟩ := mem_referencedPipes hp hm
    obtain ⟨q, hq⟩ := Lookup.exists_of_mem ((hall j).2 hj)
    exact Lookup.mem (hpipes j q hq)
  · intro hclosed
    cases hm : ix.referencedPipes k with
    | ok m => exact ⟨m, rfl⟩
    | error e =>
      obtain ⟨j, hj, hmissing, -⟩ := exists_of_referencedPipes_error hp hm
      exact absurd (hclosed j hj) hmissing

/-- Every search that goes on as long as it can ends with what collecting answers. -/
theorem search_eq_referencedPipes (hp : ix.pipes[k]? = some p) (hm : ix.referencedPipes k = .ok m)
    {s : Search} (hsteps : ReflTransGen (Step ix.pipes) (start p) s) (hend : ∀ t, ¬ Step ix.pipes s t) :
    s = ⟨0, m⟩ := by
  have hfollows := (Follows.start hp).steps hsteps
  have hdone : s.pending = 0 := by
    by_contra hpending
    obtain ⟨t, ht⟩ := hfollows.exists_step ((referencedPipes_succeeds_iff hp).1 ⟨m, hm⟩) hpending
    exact hend t ht
  exact hfollows.eq_of_done ((Follows.start hp).steps (referencedPipes_steps hp hm)) hdone rfl

/-- No search gets to the end where collecting fails. -/
theorem pending_of_referencedPipes_error (hp : ix.pipes[k]? = some p) (he : ix.referencedPipes k = .error e)
    {s : Search} (hsteps : ReflTransGen (Step ix.pipes) (start p) s) : s.pending ≠ 0 := by
  intro hdone
  have hfollows := (Follows.start hp).steps hsteps
  obtain ⟨j, hj, hmissing, -⟩ := exists_of_referencedPipes_error hp he
  obtain ⟨q, hq⟩ := Lookup.exists_of_mem ((hfollows.mem_met_iff hdone).2 hj)
  exact hmissing (Lookup.mem (hfollows.met_eq j q hq))

/-! ## Flattening what was collected -/

theorem Coherent.exists_reference (hc : Coherent ix) (hp : ix.pipes[k]? = some p) {a : Action}
    (ha : a ∈ p.actions) (hpipe : a.is .pipe = true) : ∃ j, a.reference = .ok j := by
  obtain ⟨r, hr, hspec⟩ := hc.getElem?_pipes.1 hp
  have hvalid := (Resource.validate_eq_ok.1 (hc.valid hr)).2.2
  rw [hspec] at hvalid
  exact Action.reference_of_validate hpipe ((Pipe.validate_eq_ok.1 hvalid).2 a ha).1

section collected

variable {a : Action} {i : Key}

theorem reaches_of_reached (hp : ix.pipes[k]? = some p)
    (hsub : ∀ (j : Key) (q : Pipe), m[j]? = some q → ix.pipes[j]? = some q) (h : Reached m p.actions a)
    (hj : a.reference = .ok j) : ix.Reaches k j := by
  induction h generalizing j with
  | own ha hpipe => exact .single ⟨p, hp, _, ha, hpipe, hj⟩
  | behind _ hb hq ha hpipe ih => exact (ih hb).tail ⟨_, hsub _ _ hq, _, ha, hpipe, hj⟩

theorem exists_reached_of_reaches (hp : ix.pipes[k]? = some p)
    (hall : ∀ j, ix.Reaches k j → m[j]? = ix.pipes[j]?) (h : ix.Reaches k j) :
    ∃ a, Reached m p.actions a ∧ a.reference = .ok j := by
  induction h with
  | single hstep =>
    obtain ⟨q, hq, a, ha, hpipe, hj⟩ := hstep
    cases hp.symm.trans hq
    exact ⟨a, .own ha hpipe, hj⟩
  | tail hbefore hstep ih =>
    obtain ⟨b, hb, hi⟩ := ih
    obtain ⟨q, hq, a, ha, hpipe, hj⟩ := hstep
    exact ⟨a, .behind hb hi ((hall _ hbefore).trans hq) ha hpipe, hj⟩

theorem leads_of_reaches (hall : ∀ j, ix.Reaches k j → m[j]? = ix.pipes[j]?) (hj : ix.Reaches k j)
    (h : ix.Reaches j i) : TransGen (LeadsTo m) j i := by
  induction h with
  | single hstep =>
    obtain ⟨q, hq, hi⟩ := hstep
    exact .single ⟨q, (hall _ hj).trans hq, hi⟩
  | tail hbefore hstep ih =>
    obtain ⟨q, hq, hi⟩ := hstep
    exact ih.tail ⟨q, (hall _ (hj.trans hbefore)).trans hq, hi⟩

theorem reaches_of_leads (hsub : ∀ (j : Key) (q : Pipe), m[j]? = some q → ix.pipes[j]? = some q)
    (h : TransGen (LeadsTo m) j i) : ix.Reaches j i := by
  have hsteps : LeadsTo m ≤ LeadsTo ix.pipes := fun _ _ ⟨q, hq, hi⟩ => ⟨q, hsub _ _ hq, hi⟩
  exact TransGen.mono hsteps j i h

end collected

/-- Among the collected pipes a pipe fails to flatten only for a cycle of references. -/
theorem Coherent.flatten_collected (hc : Coherent ix) (hp : ix.pipes[k]? = some p)
    (hm : ix.referencedPipes k = .ok m) :
    ((∃ e, p.flatten m = .error e) ↔ ∃ j, ix.Reaches k j ∧ ix.Reaches j j) ∧
    ∀ e, p.flatten m = .error e → ∃ j, ix.Reaches k j ∧ ix.Reaches j j ∧
      e = .failedPrecondition ("pipe reference cycle through " ++ j.text) := by
  obtain ⟨hmem, hsub⟩ := mem_referencedPipes hp hm
  have hindexed := (referencedPipes_succeeds_iff hp).1 ⟨m, hm⟩
  have hall : ∀ j, ix.Reaches k j → m[j]? = ix.pipes[j]? := fun j hj => by
    obtain ⟨q, hq⟩ := Lookup.exists_of_mem ((hmem j).2 hj)
    rw [hq, hsub j q hq]
  have hrefs : ∀ a, Reached m p.actions a →
      ∃ j, a.reference = .ok j ∧ j.isQualified = true ∧ j ∈ m := by
    intro a ha
    obtain ⟨j, hj⟩ : ∃ j, a.reference = .ok j := by
      cases ha with
      | own ha hpipe => exact hc.exists_reference hp ha hpipe
      | behind _ _ hq ha hpipe => exact hc.exists_reference (hsub _ _ hq) ha hpipe
    have hreach := reaches_of_reached hp hsub ha hj
    exact ⟨j, hj, hc.isQualified (hc.mem_resources_of_pipes (hindexed j hreach)), (hmem j).2 hreach⟩
  have hfails : ∀ e, p.flatten m = .error e → ∃ j, ix.Reaches k j ∧ ix.Reaches j j ∧
      e = .failedPrecondition ("pipe reference cycle through " ++ j.text) := by
    intro e he
    obtain ⟨a, j, ha, hj, hcycle, rfl⟩ := cycle_of_flatten_error he hrefs
    exact ⟨j, reaches_of_reached hp hsub ha hj, reaches_of_leads hsub hcycle, rfl⟩
  refine ⟨⟨fun ⟨e, he⟩ => ?_, fun ⟨j, hj, hcycle⟩ => ?_⟩, hfails⟩
  · obtain ⟨j, hj, hcycle, -⟩ := hfails e he
    exact ⟨j, hj, hcycle⟩
  · cases hflat : p.flatten m with
    | error e => exact ⟨e, rfl⟩
    | ok flat =>
      obtain ⟨a, ha, hja⟩ := exists_reached_of_reaches hp hall hj
      obtain ⟨i, hi, -, -, hnone⟩ := flatten_succeeds_iff.1 ⟨flat, hflat⟩ a ha
      cases hja.symm.trans hi
      exact absurd (leads_of_reaches hall hj hcycle) hnone

/-- Collecting what an indexed pipe refers to always ends, in whatever order references are taken. It
succeeds just when every reference that can be reached names an indexed pipe. It answers these pipes, as
does every other search, and among them the pipe can be flattened unless a reference that can be reached
comes back to itself. Otherwise it fails with the error of such a reference, and no search gets to an end. -/
theorem referencedPipes_closes (hb : Built ix) (hp : ix.pipes[k]? = some p) :
    (WellFounded fun t s => Step ix.pipes s t) ∧
    ((∃ m, ix.referencedPipes k = .ok m) ↔ ∀ j, ix.Reaches k j → j ∈ ix.pipes) ∧
    (∀ m, ix.referencedPipes k = .ok m →
      (∀ j, j ∈ m ↔ ix.Reaches k j) ∧
      (∀ (j : Key) (q : Pipe), m[j]? = some q → ix.pipes[j]? = some q) ∧
      (∀ s, ReflTransGen (Step ix.pipes) (start p) s → (∀ t, ¬ Step ix.pipes s t) → s = ⟨0, m⟩) ∧
      ((∃ e, p.flatten m = .error e) ↔ ∃ j, ix.Reaches k j ∧ ix.Reaches j j) ∧
      ∀ e, p.flatten m = .error e → ∃ j, ix.Reaches k j ∧ ix.Reaches j j ∧
        e = .failedPrecondition ("pipe reference cycle through " ++ j.text)) ∧
    ∀ e, ix.referencedPipes k = .error e →
      (∃ j, ix.Reaches k j ∧ j ∉ ix.pipes ∧ e = .notFound ("referenced pipe not found: " ++ j.text)) ∧
      ∀ s, ReflTransGen (Step ix.pipes) (start p) s → s.pending ≠ 0 := by
  refine ⟨step_wellFounded, referencedPipes_succeeds_iff hp, fun m hm => ?_, fun e he => ?_⟩
  · obtain ⟨hmem, hsub⟩ := mem_referencedPipes hp hm
    exact ⟨hmem, hsub, fun s => search_eq_referencedPipes hp hm, hb.coherent.flatten_collected hp hm⟩
  · exact ⟨exists_of_referencedPipes_error hp he, fun s => pending_of_referencedPipes_error hp he⟩

/-- A page that takes its title through an article, and a draft that names the title without its digest. -/
def pages : List Resource :=
  let title := Resource.ofSpec "title" (.pipe ⟨[Action.ofKind .document], {}⟩)
  let article := Resource.ofSpec "article" (.pipe ⟨[Action.pipe title.key], {}⟩)
  [title, article, Resource.ofSpec "page" (.pipe ⟨[Action.pipe article.key], {}⟩),
    Resource.ofSpec "draft" (.pipe ⟨[Action.pipe (.bare "title")], {}⟩)]

/-- The page reaches the article and the title and can be flattened with them, and no search gets to the
end of what the draft refers to. -/
theorem pages_closed :
    ∃ ix p q m, ofResources pages = .ok ix ∧
      ix.pipes[Key.exact "page" "2ff17b292dcf12fe59f3c990f4666dc3ec395456"]? = some p ∧
      ix.pipes[Key.exact "draft" "abca5e841d26bbeeb329429132f06603bf20a888"]? = some q ∧
      ix.referencedPipes (.exact "page" "2ff17b292dcf12fe59f3c990f4666dc3ec395456") = .ok m ∧
      m.keys.map Key.name = ["article", "title"] ∧
      ix.Reaches (.exact "page" "2ff17b292dcf12fe59f3c990f4666dc3ec395456")
        (.exact "title" "37e58cb02d402fd5cdcc77f3a898346c49ea91ff") ∧
      (¬ ∃ j, ix.Reaches (.exact "page" "2ff17b292dcf12fe59f3c990f4666dc3ec395456") j ∧ ix.Reaches j j) ∧
      (∃ j, ix.Reaches (.exact "draft" "abca5e841d26bbeeb329429132f06603bf20a888") j ∧ j ∉ ix.pipes) ∧
      ∀ s, ReflTransGen (Step ix.pipes) (start q) s → s.pending ≠ 0 := by
  let title := Key.exact "title" "37e58cb02d402fd5cdcc77f3a898346c49ea91ff"
  let page := Key.exact "page" "2ff17b292dcf12fe59f3c990f4666dc3ec395456"
  let draft := Key.exact "draft" "abca5e841d26bbeeb329429132f06603bf20a888"
  have hrun : (ofResources pages).toOption.any (fun ix => (ix.referencedPipes page).toOption.any fun m =>
      (ix.pipes[page]?).any (fun p => (p.flatten m).toOption.isSome) && (ix.pipes[draft]?).isSome &&
        decide (m.keys.map Key.name = ["article", "title"]) && decide (title ∈ m) &&
        !(ix.referencedPipes draft).toOption.isSome) = true := by
    decide +kernel
  obtain ⟨ix, hix, hrun⟩ := Result.exists_ok_of_any hrun
  obtain ⟨m, hm, hrun⟩ := Result.exists_ok_of_any hrun
  simp only [Bool.and_eq_true, decide_eq_true_eq, Bool.not_eq_true'] at hrun
  obtain ⟨⟨⟨⟨hpage, hdraft⟩, hnames⟩, htitle⟩, hfails⟩ := hrun
  obtain ⟨p, hp, hflat⟩ := (Option.any_eq_true _ _).1 hpage
  obtain ⟨q, hq⟩ := Option.isSome_iff_exists.1 hdraft
  obtain ⟨-, -, hcloses, -⟩ := referencedPipes_closes (Built.ofResources hix) hp
  obtain ⟨hkeys, -, -, hcycle, -⟩ := hcloses m hm
  obtain ⟨-, -, -, hstuck⟩ := referencedPipes_closes (Built.ofResources hix) hq
  obtain ⟨e, he⟩ : ∃ e, ix.referencedPipes draft = .error e := by
    cases h : ix.referencedPipes draft with
    | ok n => simp [h, Except.toOption] at hfails
    | error e => exact ⟨e, rfl⟩
  obtain ⟨⟨j, hj, hmissing, -⟩, hend⟩ := hstuck e he
  refine ⟨ix, p, q, m, hix, hp, hq, hm, hnames, (hkeys title).1 htitle, fun hloop => ?_,
    ⟨j, hj, hmissing⟩, hend⟩
  obtain ⟨e, he⟩ := hcycle.2 hloop
  simp [he, Except.toOption] at hflat

end PagePipes.Index
