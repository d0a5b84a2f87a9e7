import PagePipes.Proofs.Pipe.Expansion

set_option autoImplicit false

/-!
# When flattening succeeds, and how it fails

Flattening succeeds just where all references that can be reached can be followed and none of them comes
back to itself. Otherwise its error is that of the first reference, depth first and from left to right,
that cannot be followed.
-/
namespace PagePipes.Pipe

variable {table : Key.Map Pipe} {path : List Key} {actions rest out : List Action} {a : Action}
  {j k : Key} {p : Pipe} {e : Error}

/-- The references of a list of actions, and those that can be reached through them. -/
inductive Reached (table : Key.Map Pipe) (actions : List Action) : Action → Prop
  | own {a : Action} (ha : a ∈ actions) (hpipe : a.is .pipe = true) : Reached table actions a
  | behind {a b : Action} {k : Key} {p : Pipe} (h : Reached table actions b) (hk : b.reference = .ok k)
      (hp : table[k]? = some p) (ha : a ∈ p.actions) (hpipe : a.is .pipe = true) :
      Reached table actions a

theorem Inlines.exists_of_mem (h : Inlines (named table) actions out) (ha : a ∈ actions)
    (hpipe : a.is .pipe = true) :
    ∃ k p flat, a.reference = .ok k ∧ named table k = some p ∧ Inlines (named table) p.actions flat := by
  induction h with
  | nil => cases ha
  | keep hb _ ih =>
    obtain rfl | ha := List.mem_cons.1 ha
    · cases hb.symm.trans hpipe
    · exact ih ha
  | inline _ hk hp hflat _ _ ih =>
    obtain rfl | ha := List.mem_cons.1 ha
    · exact ⟨_, _, _, hk, hp, hflat⟩
    · exact ih ha

theorem Inlines.exists_of_reached (h : Inlines (named table) actions out)
    (ha : Reached table actions a) :
    ∃ k p flat, a.reference = .ok k ∧ named table k = some p ∧ Inlines (named table) p.actions flat ∧
      ¬ Relation.TransGen (LeadsTo table) k k := by
  have hself : ∀ {actions out}, Inlines (named table) actions out → ∀ {a : Action}, a ∈ actions →
      a.is .pipe = true → ∃ k p flat, a.reference = .ok k ∧ named table k = some p ∧
        Inlines (named table) p.actions flat ∧ ¬ Relation.TransGen (LeadsTo table) k k := by
    intro actions out h a ha hpipe
    obtain ⟨k, p, flat, hk, hp, hflat⟩ := h.exists_of_mem ha hpipe
    exact ⟨k, p, flat, hk, hp, hflat, h.not_leadsTo_self ⟨a, ha, hpipe, hk⟩⟩
  induction ha with
  | own ha hpipe => exact hself h ha hpipe
  | behind _ hk hp ha hpipe ih =>
    obtain ⟨j, q, flat, hj, hq, hflat, -⟩ := ih
    cases hk.symm.trans hj
    cases hp.symm.trans (named_eq_some.1 hq).2
    exact hself hflat ha hpipe

/-- The reference is well formed and qualified, names a pipe of the table and does not come back to
itself. -/
def Followable (table : Key.Map Pipe) (a : Action) : Prop :=
  ∃ k, a.reference = .ok k ∧ k.isQualified = true ∧ k ∈ table ∧
    ¬ Relation.TransGen (LeadsTo table) k k

theorem Reached.tail (h : Reached table rest a) {b : Action} : Reached table (b :: rest) a := by
  induction h with
  | own ha hpipe => exact .own (List.mem_cons_of_mem _ ha) hpipe
  | behind _ hk hp ha hpipe ih => exact .behind ih hk hp ha hpipe

theorem Reached.through {b : Action} (h : Reached table p.actions b) (hpipe : a.is .pipe = true)
    (hk : a.reference = .ok k) (hp : table[k]? = some p) : Reached table (a :: rest) b := by
  induction h with
  | own hb hbpipe => exact .behind (.own List.mem_cons_self hpipe) hk hp hb hbpipe
  | behind _ hk hp ha hpipe ih => exact .behind ih hk hp ha hpipe

/-- Where the keys of a path lead to all that is mentioned, those of the path that a reference extends lead
to all that the pipe behind it mentions. -/
theorem leads_through (ha : a.is .pipe = true) (hk : a.reference = .ok k) (hp : table[k]? = some p)
    (hpath : ∀ j ∈ path, ∀ i, Mentions (a :: rest) i → Relation.TransGen (LeadsTo table) j i) :
    ∀ j ∈ k :: path, ∀ i, Mentions p.actions i → Relation.TransGen (LeadsTo table) j i := by
  refine List.forall_mem_cons.2 ⟨fun i hi => .single ⟨p, hp, hi⟩, fun j hj i hi => ?_⟩
  exact .tail (hpath j hj k (mentions_cons.2 (.inl ⟨ha, hk⟩))) ⟨p, hp, hi⟩

/-- Such references are followed along every path whose keys lead to all that is mentioned. -/
theorem inlined_succeeds (h : ∀ a, Reached table actions a → Followable table a)
    (hpath : ∀ j ∈ path, ∀ k, Mentions actions k → Relation.TransGen (LeadsTo table) j k) :
    ∃ out, inlined table path actions = .ok out := by
  induction path, actions using inlined.induct table with
  | case1 path => exact ⟨[], inlined_nil⟩
  | case2 path a rest ha e he =>
    obtain ⟨k, hk, hq, hmem, hcycle⟩ := h a (.own List.mem_cons_self ha)
    obtain ⟨p, hp⟩ := Lookup.exists_of_mem hmem
    have hoff : k ∉ path := fun hin => hcycle (hpath k hin k (mentions_cons.2 (.inl ⟨ha, hk⟩)))
    cases he.symm.trans (enter_eq_ok.2 ⟨hk, hq, hp, hoff⟩)
  | case3 path a rest ha k p hp ihflat ih =>
    obtain ⟨hk, hq, hopen, -⟩ := enter_eq_ok.1 hp
    obtain ⟨flat, hflat⟩ := ihflat (fun b hb => h b (hb.through ha hk hopen))
      (leads_through ha hk hopen hpath)
    obtain ⟨out, hout⟩ := ih (fun b hb => h b hb.tail) fun j hj i hi => hpath j hj i hi.tail
    exact ⟨flat ++ out, by rw [inlined_enter ha hp, hflat, Result.ok_bind, hout]; rfl⟩
  | case4 path a rest ha ih =>
    have ha : a.is .pipe = false := by simpa using ha
    obtain ⟨out, hout⟩ := ih (fun b hb => h b hb.tail) fun j hj i hi => hpath j hj i hi.tail
    exact ⟨a :: out, by rw [inlined_keep ha, hout]; rfl⟩

theorem flatten_succeeds_iff :
    (∃ flat, p.flatten table = .ok flat) ↔ ∀ a, Reached table p.actions a → Followable table a := by
  constructor
  · rintro ⟨flat, hflat⟩ a ha
    obtain ⟨k, q, -, hk, hq, -, hcycle⟩ := (inlines_of_flatten hflat).1.exists_of_reached ha
    obtain ⟨hq, hmem⟩ := named_eq_some.1 hq
    exact ⟨k, hk, hq, Lookup.mem hmem, hcycle⟩
  · intro h
    have hstart : ∃ out, inlined table [] p.actions = .ok out := inlined_succeeds h (by simp)
    obtain ⟨out, hout⟩ := hstart
    exact ⟨_, by rw [flatten_eq_inlined, hout]; rfl⟩

theorem flatten_eq_ok_iff {flat : Pipe} :
    p.flatten table = .ok flat ↔ Inlines (named table) p.actions flat.actions ∧ flat.point = p.point := by
  refine ⟨inlines_of_flatten, fun ⟨hflat, hpoint⟩ => ?_⟩
  rw [flatten_eq_inlined, inlined_of_inlines hflat (by simp), ← hpoint]
  rfl

/-! ## How inlining fails -/

/-- The error of the first reference of a list that cannot be followed. -/
def faultOf (table : Key.Map Pipe) (v : List Key × Action) : Option Error :=
  match enter table v.1 v.2 with
  | .error e => some e
  | .ok _ => none

theorem faultOf_eq_some {v : List Key × Action} : faultOf table v = some e ↔ Fault table v.1 v.2 e := by
  rw [← enter_eq_error, faultOf]
  split <;> simp_all

/-- The references that are met depth first, from left to right, each with the path that leads to it.
One that cannot be followed is passed over. -/
def met (table : Key.Map Pipe) (path : List Key) : List Action → List (List Key × Action)
  | [] => []
  | a :: rest =>
    if a.is .pipe then
      match _h : enter table path a with
      | .error _ => (path, a) :: met table path rest
      | .ok (k, p) => (path, a) :: (met table (k :: path) p.actions ++ met table path rest)
    else met table path rest
termination_by actions => load (offPath table path) + actions.length
decreasing_by
  · simp
  · have := load_offPath_cons _h
    omega
  · simp
  · simp

theorem met_fault (ha : a.is .pipe = true) (h : enter table path a = .error e) :
    met table path (a :: rest) = (path, a) :: met table path rest := by
  rw [met, if_pos ha]
  split
  · rfl
  · next h' => cases h.symm.trans h'

theorem met_enter (ha : a.is .pipe = true) (h : enter table path a = .ok (k, p)) :
    met table path (a :: rest) = (path, a) :: (met table (k :: path) p.actions ++ met table path rest) := by
  rw [met, if_pos ha]
  split
  · next h' => cases h.symm.trans h'
  · next h' =>
    cases h.symm.trans h'
    rfl

/-- Inlining fails with the error of the first reference, depth first, that cannot be followed. -/
theorem findSome?_met : (met table path actions).findSome? (faultOf table) =
    match inlined table path actions with
    | .error e => some e
    | .ok _ => none := by
  induction path, actions using inlined.induct table with
  | case1 path => rw [met, inlined_nil]; rfl
  | case2 path a rest ha e he =>
    have hfault : faultOf table (path, a) = some e := faultOf_eq_some.2 (enter_eq_error.1 he)
    rw [met_fault ha he, inlined_fault ha he, List.findSome?_cons, hfault]
  | case3 path a rest ha k p hp ihflat ih =>
    have hfollowed : faultOf table (path, a) = none := by simp [faultOf, hp]
    rw [met_enter ha hp, inlined_enter ha hp, List.findSome?_cons, hfollowed, List.findSome?_append,
      ihflat, ih]
    cases inlined table (k :: path) p.actions with
    | error e => rfl
    | ok flat => cases inlined table path rest <;> rfl
  | case4 path a rest ha ih =>
    have ha' : a.is .pipe = false := by simpa using ha
    rw [met, if_neg ha, inlined_keep ha', ih]
    cases inlined table path rest <;> rfl

theorem flatten_eq_error_iff : p.flatten table = .error e ↔
    ∃ before path a after, met table [] p.actions = before ++ (path, a) :: after ∧
      (∀ v ∈ before, ∀ e', ¬ Fault table v.1 v.2 e') ∧ Fault table path a e := by
  have hfirst : p.flatten table = .error e ↔
      (met table [] p.actions).findSome? (faultOf table) = some e := by
    rw [findSome?_met, flatten_eq_inlined]
    cases inlined table [] p.actions <;> simp [Except.map]
  have hnone : ∀ v, faultOf table v = none ↔ ∀ e', ¬ Fault table v.1 v.2 e' := fun v => by
    simp only [← faultOf_eq_some, Option.eq_none_iff_forall_ne_some, ne_eq]
  simp only [hfirst, List.findSome?_eq_some_iff, hnone, faultOf_eq_some]
  constructor
  · rintro ⟨before, ⟨path, a⟩, after, hmet, hfault, hbefore⟩
    exact ⟨before, path, a, after, hmet, hbefore, hfault⟩
  · rintro ⟨before, path, a, after, hmet, hbefore, hfault⟩
    exact ⟨before, (path, a), after, hmet, hfault, hbefore⟩

/-! ## Cycles -/

/-- Everything on the path to a reference leads to what the reference names. -/
theorem leads_of_mem_met {v : List Key × Action} (hv : v ∈ met table path actions)
    (hpath : ∀ j ∈ path, ∀ k, Mentions actions k → Relation.TransGen (LeadsTo table) j k) :
    Reached table actions v.2 ∧
      ∀ j ∈ v.1, ∀ k, v.2.reference = .ok k → Relation.TransGen (LeadsTo table) j k := by
  induction path, actions using met.induct table with
  | case1 path =>
    rw [met] at hv
    cases hv
  | case2 path a rest ha e he ih =>
    rw [met_fault ha he] at hv
    obtain rfl | hv := List.mem_cons.1 hv
    · exact ⟨.own List.mem_cons_self ha, fun j hj k hk => hpath j hj k (mentions_cons.2 (.inl ⟨ha, hk⟩))⟩
    · obtain ⟨hreached, hleads⟩ := ih hv fun j hj i hi => hpath j hj i hi.tail
      exact ⟨hreached.tail, hleads⟩
  | case3 path a rest ha k p hp ihflat ih =>
    obtain ⟨hk, -, hopen, -⟩ := enter_eq_ok.1 hp
    rw [met_enter ha hp] at hv
    obtain rfl | hv := List.mem_cons.1 hv
    · exact ⟨.own List.mem_cons_self ha, fun j hj k hk => hpath j hj k (mentions_cons.2 (.inl ⟨ha, hk⟩))⟩
    obtain hv | hv := List.mem_append.1 hv
    · obtain ⟨hreached, hleads⟩ := ihflat hv (leads_through ha hk hopen hpath)
      exact ⟨hreached.through ha hk hopen, hleads⟩
    · obtain ⟨hreached, hleads⟩ := ih hv fun j hj i hi => hpath j hj i hi.tail
      exact ⟨hreached.tail, hleads⟩
  | case4 path a rest ha ih =>
    rw [met, if_neg ha] at hv
    obtain ⟨hreached, hleads⟩ := ih hv fun j hj i hi => hpath j hj i hi.tail
    exact ⟨hreached.tail, hleads⟩

/-- Where all references that can be reached name pipes of the table, only a cycle stops flattening. -/
theorem cycle_of_flatten_error (h : p.flatten table = .error e)
    (hrefs : ∀ a, Reached table p.actions a →
      ∃ k, a.reference = .ok k ∧ k.isQualified = true ∧ k ∈ table) :
    ∃ a k, Reached table p.actions a ∧ a.reference = .ok k ∧ Relation.TransGen (LeadsTo table) k k ∧
      e = .failedPrecondition ("pipe reference cycle through " ++ k.text) := by
  obtain ⟨before, path, a, after, hmet, -, hfault⟩ := flatten_eq_error_iff.1 h
  have hv : (path, a) ∈ met table [] p.actions := by simp [hmet]
  obtain ⟨hreached, hleads⟩ := leads_of_mem_met hv (by simp)
  obtain ⟨k, hk, hq, hmem⟩ := hrefs a hreached
  cases hfault with
  | malformed hbad => cases hk.symm.trans hbad
  | unqualified hk' hq' =>
    cases hk.symm.trans hk'
    cases hq.symm.trans hq'
  | missing hk' _ hmem' =>
    cases hk.symm.trans hk'
    exact absurd hmem hmem'
  | onPath hk' _ _ hpath => exact ⟨a, _, hreached, hk', hleads _ hpath _ hk', rfl⟩

/-- Flattening is plain recursive inlining, whatever the table holds. It succeeds just where every
reference that can be reached is well formed and qualified, names a pipe of the table and does not come
back to itself, and then has the inlined actions and no reference. Otherwise its error is that of the
first reference, depth first and from left to right, that cannot be followed. -/
theorem flatten_inlines_references (table : Key.Map Pipe) (p : Pipe) :
    p.flatten table = (inlined table [] p.actions).map (fun out => { p with actions := out }) ∧
    ((∃ flat, p.flatten table = .ok flat) ↔ ∀ a, Reached table p.actions a → Followable table a) ∧
    (∀ flat : Pipe, p.flatten table = .ok flat ↔
      Inlines (named table) p.actions flat.actions ∧ flat.isFlat = true ∧ flat.point = p.point) ∧
    ∀ e, p.flatten table = .error e ↔
      ∃ before path a after, met table [] p.actions = before ++ (path, a) :: after ∧
        (∀ v ∈ before, ∀ e', ¬ Fault table v.1 v.2 e') ∧ Fault table path a e := by
  refine ⟨flatten_eq_inlined table p, flatten_succeeds_iff, fun flat => ?_, fun e => flatten_eq_error_iff⟩
  rw [flatten_eq_ok_iff]
  constructor
  · rintro ⟨hflat, hpoint⟩
    exact ⟨hflat, by simpa [isFlat] using hflat.flat, hpoint⟩
  · rintro ⟨hflat, -, hpoint⟩
    exact ⟨hflat, hpoint⟩

end PagePipes.Pipe
