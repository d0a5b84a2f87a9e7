import PagePipes.Planner
import PagePipes.Proofs.Pipe.Inlining
import PagePipes.Proofs.Plan.Stability
import PagePipes.Proofs.WrittenKeys

set_option autoImplicit false

/-!
# Runs of a planner

A run makes pipes available and adds pipes, in any order. Its history tells which pipes were folded
into the plan and what they flattened to at that time; the graph of the planner holds the chains of
the history, and its pipes are those of the history.
-/
namespace PagePipes.Planner
open PlanGraph (ofChains Tree)

inductive Call
  | provide (k : Key) (p : Pipe)
  | add (k : Key) (p : Pipe)

def Call.pipe : Call → Pipe
  | .provide _ p => p
  | .add _ p => p

def apply (s : Planner) : Call → Result Planner
  | .provide k p => .ok (s.provide k p)
  | .add k p => s.add k p

def run (s : Planner) (calls : List Call) : Result Planner := calls.foldlM apply s

/-- A pipe of a plan and its flat form. -/
structure Folded where
  name : Key
  pipe : Pipe
  flat : Pipe

def Folded.exchange (f : Folded) : Key := .exact f.name.name f.flat.digest

def Folded.chain (f : Folded) : List Action := Planner.chain f.name.name f.flat

/-- What a call folds into the plan. -/
def folds (s : Planner) : Call → List Folded
  | .provide _ _ => []
  | .add k p =>
    if k ∈ s.pipes then []
    else match p.flatten s.table with
      | .ok flat => [⟨k, p, flat⟩]
      | .error _ => []

/-- What a run folds into the plan, in the order of its calls. -/
def history (s : Planner) : List Call → List Folded
  | [] => []
  | c :: rest =>
    match s.apply c with
    | .ok next => s.folds c ++ next.history rest
    | .error _ => []

/-- The graph and the pipes of a planner are those of a history. -/
structure Holds (s : Planner) (log : List Folded) : Prop where
  graph : s.graph = ofChains (log.map Folded.chain)
  pipes : ∀ (k : Key) (v : Pipe × Key),
    s.pipes[k]? = some v ↔ ∃ f ∈ log, f.name = k ∧ v = (f.pipe, f.exchange)

variable {s next : Planner} {k : Key} {p : Pipe} {c : Call} {calls : List Call}
  {log : List Folded}

theorem add_of_mem (hq : k.isQualified = true) (hk : k ∈ s.pipes) : s.add k p = .ok s := by
  simp [add, hq, hk]

theorem add_of_not_mem (hq : k.isQualified = true) (hk : k ∉ s.pipes) {flat : Pipe}
    (hflat : p.flatten s.table = .ok flat) :
    s.add k p = .ok { s with
      pipes := s.pipes.insert k (p, .exact k.name flat.digest)
      graph := s.graph.insert (chain k.name flat) } := by
  simp [add, hq, hk, hflat]

theorem add_eq_ok (h : s.add k p = .ok next) :
    k.isQualified = true ∧
      ((k ∈ s.pipes ∧ next = s) ∨
        ∃ flat, k ∉ s.pipes ∧ p.flatten s.table = .ok flat ∧
          next = { s with
            pipes := s.pipes.insert k (p, .exact k.name flat.digest)
            graph := s.graph.insert (chain k.name flat) }) := by
  cases hq : k.isQualified with
  | false => simp [add, hq] at h
  | true =>
    refine ⟨rfl, ?_⟩
    by_cases hk : k ∈ s.pipes
    · rw [add_of_mem hq hk] at h
      cases h
      exact .inl ⟨hk, rfl⟩
    · cases hflat : p.flatten s.table with
      | error e => simp [add, hq, hk, hflat] at h
      | ok flat =>
        rw [add_of_not_mem hq hk hflat] at h
        cases h
        exact .inr ⟨flat, hk, rfl, rfl⟩

theorem Holds.start {table : Key.Map Pipe} : Holds { table := table } [] where
  graph := rfl
  pipes k v := by simp

theorem Holds.mem_pipes (h : Holds s log) : k ∈ s.pipes ↔ ∃ f ∈ log, f.name = k := by
  constructor
  · intro hk
    obtain ⟨v, hv⟩ := Lookup.exists_of_mem hk
    obtain ⟨f, hf, hname, -⟩ := (h.pipes k v).1 hv
    exact ⟨f, hf, hname⟩
  · rintro ⟨f, hf, hname⟩
    exact Lookup.mem ((h.pipes k _).2 ⟨f, hf, hname, rfl⟩)

/-- A call extends the history by what it folds into the plan. -/
theorem Holds.apply (h : Holds s log) (hc : s.apply c = .ok next) :
    Holds next (log ++ s.folds c) := by
  cases c with
  | provide k p =>
    cases hc
    rw [folds, List.append_nil]
    exact ⟨h.graph, h.pipes⟩
  | add k p =>
    obtain ⟨-, ⟨hk, rfl⟩ | ⟨flat, hk, hflat, rfl⟩⟩ := add_eq_ok hc
    · rw [folds, if_pos hk, List.append_nil]
      exact h
    · have hfolds : s.folds (.add k p) = [⟨k, p, flat⟩] := by
        rw [folds, if_neg hk, hflat]
      rw [hfolds]
      refine ⟨?_, fun j v => ?_⟩
      · simp [ofChains, h.graph, Folded.chain]
      · rw [Std.ExtTreeMap.getElem?_insert]
        by_cases hkj : k = j
        · subst hkj
          have hfresh : ∀ f ∈ log, f.name ≠ k := fun f hf hname => hk (h.mem_pipes.2 ⟨f, hf, hname⟩)
          simp only [Std.compare_self, ↓reduceIte, Option.some.injEq, List.mem_append,
            List.mem_singleton]
          constructor
          · rintro rfl
            exact ⟨_, .inr rfl, rfl, rfl⟩
          · rintro ⟨f, hf | rfl, hname, rfl⟩
            · exact absurd hname (hfresh f hf)
            · rfl
        · simp [hkj, h.pipes]

theorem Holds.run (h : Holds s log) (hr : s.run calls = .ok next) :
    Holds next (log ++ s.history calls) := by
  induction calls generalizing s log with
  | nil =>
    cases Result.pure_eq_ok.1 hr
    rw [history, List.append_nil]
    exact h
  | cons c calls ih =>
    rw [Planner.run, List.foldlM_cons] at hr
    obtain ⟨middle, hc, hr⟩ := Result.bind_eq_ok.1 hr
    rw [history, hc, ← List.append_assoc]
    exact ih (h.apply hc) hr

theorem Holds.mem_planned (h : Holds s log) {planned : PlannedPipe} :
    planned ∈ s.planned ↔ ∃ f ∈ log, planned = ⟨f.name, f.exchange⟩ := by
  simp only [Planner.planned, List.mem_map, Prod.exists, Std.ExtTreeMap.mem_toList_iff_getElem?_eq_some,
    h.pipes]
  constructor
  · rintro ⟨k, p, x, ⟨f, hf, rfl, hv⟩, rfl⟩
    cases hv
    exact ⟨f, hf, rfl⟩
  · rintro ⟨f, hf, rfl⟩
    exact ⟨f.name, f.pipe, f.exchange, ⟨f, hf, rfl, rfl⟩, rfl⟩

end PagePipes.Planner
