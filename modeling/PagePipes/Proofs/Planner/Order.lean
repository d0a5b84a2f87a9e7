import PagePipes.Proofs.Planner.Run

set_option autoImplicit false

/-!
# The order of additions

Additions over one table of pipes fold the same pipes into the plan in any order and any number of
repetitions, and plans do not show the order of their chains. So neither the plan nor the planned
pipes depend on it.
-/
namespace PagePipes.Planner
open PlanGraph (ofChains CollisionFree build_ofChains_eq)

def adds (pipes : List (Key × Pipe)) : List Call := pipes.map fun e => .add e.1 e.2

/-- Every key stands for one pipe. -/
def Functional (pipes : List (Key × Pipe)) : Prop :=
  ∀ (k : Key) (p q : Pipe), (k, p) ∈ pipes → (k, q) ∈ pipes → p = q

/-- The pipe that an entry of a history was folded for, among the pipes added over a table. -/
def Folded.Of (f : Folded) (table : Key.Map Pipe) (pipes : List (Key × Pipe)) : Prop :=
  (f.name, f.pipe) ∈ pipes ∧ f.pipe.flatten table = .ok f.flat

variable {s next : Planner} {table : Key.Map Pipe} {k : Key} {p : Pipe}
  {pipes rest xs ys : List (Key × Pipe)} {log : List Folded} {f : Folded}

theorem table_add (h : s.add k p = .ok next) : next.table = s.table := by
  obtain ⟨-, ⟨-, rfl⟩ | ⟨flat, -, -, rfl⟩⟩ := add_eq_ok h
  · rfl
  · rfl

theorem run_adds_cons :
    s.run (adds ((k, p) :: rest)) = .ok next ↔
      ∃ middle, s.add k p = .ok middle ∧ middle.run (adds rest) = .ok next := by
  rw [adds, List.map_cons, run, List.foldlM_cons, Result.bind_eq_ok]
  rfl

/-- Additions succeed when every pipe has a qualified key and can be flattened. -/
theorem run_adds_succeeds (htable : s.table = table)
    (h : ∀ e ∈ pipes, e.1.isQualified = true ∧ ∃ flat, e.2.flatten table = .ok flat) :
    ∃ next, s.run (adds pipes) = .ok next := by
  induction pipes generalizing s with
  | nil => exact ⟨s, rfl⟩
  | cons e rest ih =>
    obtain ⟨k, p⟩ := e
    obtain ⟨hq, flat, hflat⟩ := h (k, p) (by simp)
    have hadd : ∃ middle, s.add k p = .ok middle := by
      by_cases hk : k ∈ s.pipes
      · exact ⟨s, add_of_mem hq hk⟩
      · exact ⟨_, add_of_not_mem hq hk (htable ▸ hflat)⟩
    obtain ⟨middle, hmiddle⟩ := hadd
    obtain ⟨next, hnext⟩ := ih ((table_add hmiddle).trans htable)
      fun e he => h e (List.mem_cons_of_mem _ he)
    exact ⟨next, run_adds_cons.2 ⟨middle, hmiddle, hnext⟩⟩

theorem Folded.of_singleton {flat : Pipe} (hflat : p.flatten table = .ok flat) :
    f.Of table [(k, p)] ↔ f = ⟨k, p, flat⟩ := by
  constructor
  · rintro ⟨hf, hfflat⟩
    obtain ⟨hname, hpipe⟩ := Prod.mk.inj (List.mem_singleton.1 hf)
    rw [hpipe, hflat, Except.ok.injEq] at hfflat
    cases f
    simp_all
  · rintro rfl
    exact ⟨by simp, hflat⟩

/-- A pipe that was added is in the history, by this call or by an earlier one of its key. -/
theorem mem_folds_add (hs : Holds s log) (htable : s.table = table) (hfun : Functional pipes)
    (hlog : ∀ f ∈ log, f.Of table pipes) (hkp : (k, p) ∈ pipes) (h : s.add k p = .ok next) :
    k.isQualified = true ∧ (∃ flat, p.flatten table = .ok flat) ∧
      ∀ f, f ∈ log ++ s.folds (.add k p) ↔ f ∈ log ∨ f.Of table [(k, p)] := by
  obtain ⟨hq, ⟨hk, rfl⟩ | ⟨flat, hk, hflat, -⟩⟩ := add_eq_ok h
  · obtain ⟨g, hg, rfl⟩ := hs.mem_pipes.1 hk
    obtain ⟨hmem, hflat⟩ := hlog g hg
    -- one key stands for one pipe, so the earlier call flattened this one
    cases hfun g.name p g.pipe hkp hmem
    refine ⟨hq, ⟨_, hflat⟩, fun f => ?_⟩
    rw [folds, if_pos hk, List.append_nil, Folded.of_singleton hflat]
    exact (or_iff_left_of_imp fun hf => hf ▸ hg).symm
  · rw [htable] at hflat
    refine ⟨hq, ⟨flat, hflat⟩, fun f => ?_⟩
    rw [folds, if_neg hk, htable, hflat, List.mem_append, List.mem_singleton,
      Folded.of_singleton hflat]

/-- Additions that succeed fold every pipe into the plan, and nothing else. -/
theorem mem_history_adds (hs : Holds s log) (htable : s.table = table) (hfun : Functional pipes)
    (hlog : ∀ f ∈ log, f.Of table pipes) (hsub : ∀ e ∈ rest, e ∈ pipes)
    (h : s.run (adds rest) = .ok next) :
    (∀ e ∈ rest, e.1.isQualified = true ∧ ∃ flat, e.2.flatten table = .ok flat) ∧
      ∀ f, f ∈ log ++ s.history (adds rest) ↔ f ∈ log ∨ f.Of table rest := by
  induction rest generalizing s log with
  | nil => simp [adds, history, Folded.Of]
  | cons e rest ih =>
    obtain ⟨k, p⟩ := e
    obtain ⟨middle, hadd, hrun⟩ := run_adds_cons.1 h
    have hkp : (k, p) ∈ pipes := hsub _ (by simp)
    obtain ⟨hq, hflat, hmem⟩ := mem_folds_add hs htable hfun hlog hkp hadd
    have hlater : ∀ f ∈ log ++ s.folds (.add k p), f.Of table pipes := by
      intro f hf
      rcases (hmem f).1 hf with hf | ⟨hf, hfflat⟩
      · exact hlog f hf
      · exact ⟨List.mem_singleton.1 hf ▸ hkp, hfflat⟩
    have hmiddle : Holds middle (log ++ s.folds (.add k p)) := hs.apply hadd
    obtain ⟨hall, hhistory⟩ := ih hmiddle ((table_add hadd).trans htable) hlater
      (fun e he => hsub e (List.mem_cons_of_mem _ he)) hrun
    refine ⟨fun e he => ?_, fun f => ?_⟩
    · rcases List.mem_cons.1 he with rfl | he
      · exact ⟨hq, hflat⟩
      · exact hall e he
    · have happly : s.apply (.add k p) = .ok middle := hadd
      have hsplit : s.history (adds ((k, p) :: rest)) =
          s.folds (.add k p) ++ middle.history (adds rest) := by
        rw [adds, List.map_cons, history, happly, ← adds]
      rw [hsplit, ← List.append_assoc, hhistory f, hmem f, or_assoc]
      refine or_congr_right ?_
      simp only [Folded.Of, List.mem_cons, List.not_mem_nil, or_false]
      rw [or_and_right]

theorem pipes_eq_of_holds {t : Planner} {others : List Folded} (hs : Holds s log)
    (ht : Holds t others) (hsame : ∀ f, f ∈ log ↔ f ∈ others) : s.pipes = t.pipes := by
  apply Std.ExtTreeMap.ext_getElem?
  intro k
  apply Option.ext
  intro v
  rw [hs.pipes, ht.pipes]
  exact exists_congr fun f => and_congr_left fun _ => hsame f

theorem build_eq_of_holds {t : Planner} {others : List Folded} (hs : Holds s log)
    (ht : Holds t others) (hfree : CollisionFree (log.map Folded.chain).flatten)
    (hsame : ∀ f, f ∈ log ↔ f ∈ others) : s.build = t.build := by
  rw [build, build, hs.graph, ht.graph]
  refine build_ofChains_eq hfree fun actions => ?_
  rw [List.mem_map, List.mem_map]
  exact exists_congr fun f => and_congr_left fun _ => hsame f

/-- Additions of the same pipes in any order succeed alike, with one plan and the same planned
pipes. -/
theorem run_adds_of_same (hfun : Functional xs) (hsame : ∀ e, e ∈ xs ↔ e ∈ ys)
    (h : run { table := table } (adds xs) = .ok s)
    (hfree : CollisionFree
      ((history { table := table } (adds xs)).map Folded.chain).flatten) :
    ∃ t, run { table := table } (adds ys) = .ok t ∧ t.build = s.build ∧ t.planned = s.planned := by
  have hfun' : Functional ys := fun k p q hp hq =>
    hfun k p q ((hsame _).2 hp) ((hsame _).2 hq)
  have hnil : ∀ pipes : List (Key × Pipe), ∀ f ∈ ([] : List Folded), f.Of table pipes := by simp
  obtain ⟨hall, hxs⟩ := mem_history_adds .start rfl hfun (hnil xs) (fun _ he => he) h
  obtain ⟨t, ht⟩ := run_adds_succeeds (s := { table := table }) rfl
    fun e he => hall e ((hsame e).2 he)
  obtain ⟨-, hys⟩ := mem_history_adds .start rfl hfun' (hnil ys) (fun _ he => he) ht
  have hlogs : ∀ f, f ∈ [] ++ history { table := table } (adds xs) ↔
      f ∈ [] ++ history { table := table } (adds ys) := by
    intro f
    rw [hxs, hys]
    simp only [Folded.Of, hsame]
  have hholds := Holds.start.run h
  have hholds' := Holds.start.run ht
  refine ⟨t, ht, (build_eq_of_holds hholds hholds' hfree hlogs).symm, ?_⟩
  rw [planned, planned, pipes_eq_of_holds hholds hholds' hlogs]

/-- Neither the plan of chains nor that of a planner depends on the order of what goes into it, or
on repetitions. -/
theorem plan_depends_on_set :
    (∀ chains others : List (List Action), CollisionFree chains.flatten →
      (∀ actions, actions ∈ chains ↔ actions ∈ others) →
        (ofChains chains).build = (ofChains others).build) ∧
      ∀ (table : Key.Map Pipe) (xs ys : List (Key × Pipe)) (s : Planner), Functional xs →
        (∀ e, e ∈ xs ↔ e ∈ ys) → run { table := table } (adds xs) = .ok s →
          CollisionFree ((history { table := table } (adds xs)).map Folded.chain).flatten →
            ∃ t, run { table := table } (adds ys) = .ok t ∧ t.build = s.build ∧
              t.planned = s.planned :=
  ⟨fun _ _ => build_ofChains_eq, fun _ _ _ _ hfun hsame h hfree =>
    run_adds_of_same hfun hsame h hfree⟩

def links : List (Key × Pipe) :=
  [(Key.exact "text" "0000000000000000000000000000000000000000",
      ⟨[Action.ofArgument .selector "a"], {}⟩),
    (Key.exact "link" "1111111111111111111111111111111111111111",
      ⟨[Action.ofArgument .selector "a", Action.ofArgument .attribute "href"], {}⟩)]

/-- The link may come first, and twice. -/
theorem links_in_any_order :
    (∃ s t, run {} (adds links) = .ok s ∧ run {} (adds (links.reverse ++ links)) = .ok t ∧
      t.build = s.build ∧ t.planned = s.planned) ∧
      (ofChains (links.map (·.2.actions))).build =
        (ofChains (links.reverse.map (·.2.actions))).build := by
  have hrun : (run {} (adds links)).toOption.any (fun _ =>
      decide (CollisionFree ((history {} (adds links)).map Folded.chain).flatten)) = true := by
    decide +kernel
  obtain ⟨s, hs, hrun⟩ := Result.exists_ok_of_any hrun
  have hfree := of_decide_eq_true hrun
  have hfun : Functional links := by
    intro k p q hp hq
    simp only [links, List.mem_cons, Prod.mk.injEq, List.not_mem_nil, or_false] at hp hq
    rcases hp with ⟨rfl, rfl⟩ | ⟨rfl, rfl⟩
    · rcases hq with ⟨-, rfl⟩ | ⟨h, -⟩
      · rfl
      · exact absurd h (by decide)
    · rcases hq with ⟨h, -⟩ | ⟨-, rfl⟩
      · exact absurd h (by decide)
      · rfl
  obtain ⟨t, ht, hbuild, hplanned⟩ :=
    plan_depends_on_set.2 ∅ links (links.reverse ++ links) s hfun (by simp) hs hfree
  refine ⟨⟨s, t, hs, ht, hbuild, hplanned⟩, ?_⟩
  refine plan_depends_on_set.1 _ _ ?_ (by simp)
  decide +kernel

end PagePipes.Planner
