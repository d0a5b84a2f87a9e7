import PagePipes.Proofs.Plan.Reading
import PagePipes.Proofs.Planner.Run

set_option autoImplicit false

/-!
# What the plan of a planner reads as

Pipes without exchanges flatten to pipes without exchanges, so every chain of a planner ends with
its only one. The plan therefore reads as the chains of its pipes, and its targets are the keys that
the planned pipes report under.
-/
namespace PagePipes

def Pipe.Plain (p : Pipe) : Prop := ∀ a ∈ p.actions, a.is .exchange = false

instance {p : Pipe} : Decidable p.Plain :=
  inferInstanceAs (Decidable (∀ a ∈ p.actions, a.is .exchange = false))

namespace Planner
open PlanGraph (ofChains placeOf numberAt CollisionFree Closes)

/-- Neither the pipes that may be referred to nor the flat pipes have exchanges. -/
structure Plain (s : Planner) (log : List Folded) : Prop where
  table : ∀ (k : Key) (p : Pipe), s.table[k]? = some p → p.Plain
  flat : ∀ f ∈ log, f.flat.Plain

variable {s next : Planner} {c : Call} {calls : List Call} {log : List Folded} {f g : Folded}
  {i : Nat}

theorem plain_flatten {table : Key.Map Pipe} {p flat : Pipe} (hp : p.Plain)
    (htable : ∀ (k : Key) (q : Pipe), table[k]? = some q → q.Plain)
    (h : p.flatten table = .ok flat) : flat.Plain := by
  intro a ha
  rcases (Pipe.inlines_of_flatten h).1.mem ha with ha | ⟨k, q, hq, ha⟩
  · exact hp a ha
  · exact htable k q (Pipe.named_eq_some.1 hq).2 a ha

theorem Plain.start : Plain {} [] where
  table k p h := by simp at h
  flat := by simp

theorem Plain.apply (h : Plain s log) (hplain : c.pipe.Plain) (hc : s.apply c = .ok next) :
    Plain next (log ++ s.folds c) := by
  cases c with
  | provide k p =>
    cases hc
    refine ⟨fun j q hq => ?_, by simpa [folds] using h.flat⟩
    rw [provide, Std.ExtTreeMap.getElem?_insert] at hq
    split at hq
    · cases hq
      exact hplain
    · exact h.table j q hq
  | add k p =>
    obtain ⟨-, ⟨hk, rfl⟩ | ⟨flat, hk, hflat, rfl⟩⟩ := add_eq_ok hc
    · rw [folds, if_pos hk, List.append_nil]
      exact h
    · refine ⟨h.table, ?_⟩
      rw [folds, if_neg hk, hflat]
      simp only [List.mem_append, List.mem_singleton]
      rintro f (hf | rfl)
      · exact h.flat f hf
      · exact plain_flatten hplain h.table hflat

theorem Plain.run (h : Plain s log) (hplain : ∀ c ∈ calls, c.pipe.Plain)
    (hr : s.run calls = .ok next) : Plain next (log ++ s.history calls) := by
  induction calls generalizing s log with
  | nil =>
    cases Result.pure_eq_ok.1 hr
    rw [history, List.append_nil]
    exact h
  | cons c calls ih =>
    rw [Planner.run, List.foldlM_cons] at hr
    obtain ⟨middle, hc, hr⟩ := Result.bind_eq_ok.1 hr
    rw [history, hc, ← List.append_assoc]
    exact ih (h.apply (hplain c (by simp)) hc) (fun d hd => hplain d (List.mem_cons_of_mem _ hd)) hr

theorem name_of_history (hf : f ∈ s.history calls) : Call.add f.name f.pipe ∈ calls := by
  induction calls generalizing s with
  | nil => simp [history] at hf
  | cons c calls ih =>
    rw [history] at hf
    split at hf
    · rcases List.mem_append.1 hf with hf | hf
      · refine List.mem_cons.2 (.inl ?_)
        cases c with
        | provide k p => simp [folds] at hf
        | add k p =>
          rw [folds] at hf
          split at hf
          · simp at hf
          · split at hf
            · cases List.mem_singleton.1 hf
              rfl
            · simp at hf
      · exact List.mem_cons_of_mem _ (ih hf)
    · simp at hf

theorem closes_chain (h : f.flat.Plain) : Closes f.chain :=
  ⟨f.flat.actions, _, rfl, Action.is_exchange, h⟩

theorem valid_exchange (h : Key.validateName f.name.name = .ok ()) : f.exchange.Valid := by
  refine ⟨h, ?_⟩
  rintro d ⟨rfl⟩
  exact Key.validateDigest_digestText _

/-- Every exchange of the plan reports under the key of some pipe, whatever the digests are. -/
theorem target_of_exchange (hplain : ∀ f ∈ log, f.flat.Plain)
    (hnames : ∀ f ∈ log, Key.validateName f.name.name = .ok ())
    (hi : i ∈ (ofChains (log.map Folded.chain)).build.exchanges) :
    ∃ f ∈ log, (ofChains (log.map Folded.chain)).build.target i = .ok f.exchange := by
  obtain ⟨s, hs, hx, actions, hactions, hmem⟩ := PlanGraph.step_of_exchange hi
  obtain ⟨f, hf, rfl⟩ := List.mem_map.1 hactions
  have hlast : s.action = Action.exchange f.exchange f.flat.point.scalar := by
    rcases List.mem_append.1 hmem with hbody | hlast
    · rw [hplain f hf _ hbody] at hx
      cases hx
    · exact List.mem_singleton.1 hlast
  refine ⟨f, hf, ?_⟩
  simp only [Plan.target, hs, hlast]
  exact Action.reference_exchange (valid_exchange (hnames f hf))

theorem targets_of_plain (hplain : ∀ f ∈ log, f.flat.Plain)
    (hnames : ∀ f ∈ log, Key.validateName f.name.name = .ok ()) :
    ∃ ts, (ofChains (log.map Folded.chain)).build.targets = .ok ts ∧
      ∀ t ∈ ts, ∃ f ∈ log, f.exchange = t := by
  obtain ⟨ts, hts⟩ := Result.mapM_succeeds fun i hi => by
    obtain ⟨f, -, hf⟩ := target_of_exchange hplain hnames hi
    exact ⟨_, hf⟩
  refine ⟨ts, hts, fun t ht => ?_⟩
  obtain ⟨i, hi, hti⟩ := Result.exists_of_forall₂ (Result.mapM_eq_ok.1 hts).flip ht
  obtain ⟨f, hf, hfi⟩ := target_of_exchange hplain hnames hi
  cases hfi.symm.trans hti
  exact ⟨f, hf, rfl⟩

section targets

variable (hfree : CollisionFree (log.map Folded.chain).flatten)
  (hplain : ∀ f ∈ log, f.flat.Plain)
  (hnames : ∀ f ∈ log, Key.validateName f.name.name = .ok ())

include hfree hnames in
theorem target_chain (hf : f ∈ log) :
    (ofChains (log.map Folded.chain)).build.target
      ((ofChains (log.map Folded.chain)).numberAt (placeOf f.chain)) = .ok f.exchange := by
  have hstep := PlanGraph.step?_ofChains hfree (List.mem_map.2 ⟨f, hf, rfl⟩) List.prefix_rfl
  rw [Plan.target, Folded.chain, chain, hstep]
  exact Action.reference_exchange (valid_exchange (hnames f hf))

include hfree hplain in
theorem mem_exchanges_chain :
    i ∈ (ofChains (log.map Folded.chain)).build.exchanges ↔
      ∃ f ∈ log, (ofChains (log.map Folded.chain)).numberAt (placeOf f.chain) = i := by
  have hcloses : ∀ actions ∈ log.map Folded.chain, Closes actions := by
    intro actions hactions
    obtain ⟨f, hf, rfl⟩ := List.mem_map.1 hactions
    exact closes_chain (hplain f hf)
  rw [PlanGraph.mem_exchanges_ofChains hfree hcloses]
  simp only [List.mem_map, exists_exists_and_eq_and]

include hfree hplain hnames in
/-- The targets are the keys of the exchanges; two of them agree only where two different chains
report under one key. -/
theorem targets_chains :
    ∃ ts, (ofChains (log.map Folded.chain)).build.targets = .ok ts ∧
      (∀ t, t ∈ ts ↔ ∃ f ∈ log, f.exchange = t) ∧
        (ts.Nodup ↔ ∀ f ∈ log, ∀ g ∈ log, f.exchange = g.exchange → f.chain = g.chain) := by
  have htarget : ∀ i ∈ (ofChains (log.map Folded.chain)).build.exchanges,
      ∃ t, (ofChains (log.map Folded.chain)).build.target i = .ok t := by
    intro i hi
    obtain ⟨f, hf, rfl⟩ := (mem_exchanges_chain hfree hplain).1 hi
    exact ⟨_, target_chain hfree hnames hf⟩
  obtain ⟨ts, hts⟩ := Result.mapM_succeeds htarget
  have hmap := Result.map_ok_of_mapM hts
  refine ⟨ts, hts, fun t => ?_, ?_⟩
  · have hmem : t ∈ ts ↔ Except.ok t ∈ ts.map (Except.ok : Key → Result Key) := by simp
    rw [hmem, ← hmap, List.mem_map]
    constructor
    · rintro ⟨i, hi, ht⟩
      obtain ⟨f, hf, rfl⟩ := (mem_exchanges_chain hfree hplain).1 hi
      rw [target_chain hfree hnames hf, Except.ok.injEq] at ht
      exact ⟨f, hf, ht⟩
    · rintro ⟨f, hf, rfl⟩
      exact ⟨_, (mem_exchanges_chain hfree hplain).2 ⟨f, hf, rfl⟩, target_chain hfree hnames hf⟩
  · -- exchanges are listed once, so a target comes twice only where two of them share a key
    have hinj : Function.Injective (Except.ok : Key → Result Key) := fun a b h => by
      simpa using h
    have hnodup : (ofChains (log.map Folded.chain)).build.exchanges.Nodup := by
      rw [PlanGraph.build_eq_listing PlanGraph.tree_ofChains]
      exact PlanGraph.exchanges_nodup
    rw [← List.nodup_map_iff hinj, ← hmap, List.nodup_map_iff_inj_on hnodup]
    constructor
    · intro h f hf g hg hfg
      refine PlanGraph.eq_of_numberAt_eq hfree (List.mem_map.2 ⟨f, hf, rfl⟩)
        (List.mem_map.2 ⟨g, hg, rfl⟩) ?_
      refine h _ ((mem_exchanges_chain hfree hplain).2 ⟨f, hf, rfl⟩) _
        ((mem_exchanges_chain hfree hplain).2 ⟨g, hg, rfl⟩) ?_
      rw [target_chain hfree hnames hf, target_chain hfree hnames hg, hfg]
    · intro h i hi j hj hij
      obtain ⟨f, hf, rfl⟩ := (mem_exchanges_chain hfree hplain).1 hi
      obtain ⟨g, hg, rfl⟩ := (mem_exchanges_chain hfree hplain).1 hj
      rw [target_chain hfree hnames hf, target_chain hfree hnames hg, Except.ok.injEq] at hij
      rw [h f hf g hg hij]

end targets

def titleAndField : List Call :=
  let title := Key.exact "title" "0000000000000000000000000000000000000000"
  let field := Key.exact "field" "1111111111111111111111111111111111111111"
  [.provide title ⟨[Action.ofKind .document], {}⟩,
    .add field ⟨[Action.pipe title, Action.ofArgument .field "a"], {}⟩,
    .add title ⟨[Action.ofKind .document], {}⟩]

end Planner
end PagePipes
