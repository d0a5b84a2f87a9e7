import Mathlib.Logic.Relation
import PagePipes.Proofs.Pipe.Inlining
import PagePipes.Proofs.References

set_option autoImplicit false

/-!
# Flattening without a memo

`inlined` expands a reference each time that it is met and knows nothing but the path of references
that it stands on. Flattening has the same results and the same errors: what the memo holds is inlined,
and everything that it leads to is in the memo too, so none of it is on a path that is still followed.
-/
namespace PagePipes.Pipe

/-! ## Plain inlining -/

/-- The pipes of a table that are not on a path. -/
def offPath (table : Key.Map Pipe) (path : List Key) : Key.Map Pipe :=
  path.foldr (fun k m => m.erase k) table

/-- Follows a reference to a pipe of the table that is not on the path to the reference. -/
def enter (table : Key.Map Pipe) (path : List Key) (a : Action) : Result (Key × Pipe) := do
  let k ← a.reference
  if k.isQualified then
    match table[k]? with
    | none => .error (.invalidArgument ("referenced pipe not provided: " ++ k.text))
    | some p =>
      if k ∈ path then .error (.failedPrecondition ("pipe reference cycle through " ++ k.text))
      else .ok (k, p)
  else .error (.invalidArgument ("cannot flatten unqualified reference: " ++ k.text))

/-- Why a reference at the end of a path cannot be followed. -/
inductive Fault (table : Key.Map Pipe) (path : List Key) (a : Action) : Error → Prop
  | malformed {reason : String} (h : a.reference = .error (.invalidArgument reason)) :
      Fault table path a (.invalidArgument reason)
  | unqualified {k : Key} (hk : a.reference = .ok k) (hq : k.isQualified = false) :
      Fault table path a (.invalidArgument ("cannot flatten unqualified reference: " ++ k.text))
  | missing {k : Key} (hk : a.reference = .ok k) (hq : k.isQualified = true) (hp : k ∉ table) :
      Fault table path a (.invalidArgument ("referenced pipe not provided: " ++ k.text))
  | onPath {k : Key} (hk : a.reference = .ok k) (hq : k.isQualified = true) (hp : k ∈ table)
      (hpath : k ∈ path) :
      Fault table path a (.failedPrecondition ("pipe reference cycle through " ++ k.text))

variable {table : Key.Map Pipe} {path : List Key} {actions rest out : List Action} {a : Action}
  {j k : Key} {p : Pipe} {e : Error}

theorem getElem?_offPath : (offPath table path)[k]? = if k ∈ path then none else table[k]? := by
  induction path with
  | nil => simp [offPath]
  | cons j path ih =>
    have hstep : (offPath table (j :: path))[k]? = if j = k then none else (offPath table path)[k]? := by
      simp only [offPath, List.foldr_cons, Std.ExtTreeMap.getElem?_erase, Std.compare_eq_iff_eq]
    rw [hstep, ih]
    by_cases hj : j = k
    · simp [hj]
    · simp [hj, Ne.symm hj]

theorem enter_eq_ok : enter table path a = .ok (k, p) ↔
    a.reference = .ok k ∧ k.isQualified = true ∧ table[k]? = some p ∧ k ∉ path := by
  unfold enter
  rw [Result.bind_eq_ok]
  constructor
  · rintro ⟨j, hj, h⟩
    split at h
    · next hq =>
      split at h
      · cases h
      · next q hp =>
        split at h
        · cases h
        · next hpath =>
          cases h
          exact ⟨hj, hq, hp, hpath⟩
    · cases h
  · rintro ⟨hk, hq, hp, hpath⟩
    exact ⟨k, hk, by simp [hq, hp, hpath]⟩

theorem enter_eq_error : enter table path a = .error e ↔ Fault table path a e := by
  unfold enter
  rw [Result.bind_eq_error]
  constructor
  · rintro (hk | ⟨k, hk, h⟩)
    · obtain ⟨reason, rfl, -⟩ := (Action.fault_of_reference hk).message
      exact .malformed hk
    · split at h
      · next hq =>
        split at h
        · next hp =>
          cases h
          exact .missing hk hq (by simpa using hp)
        · next p hp =>
          split at h
          · next hpath =>
            cases h
            exact .onPath hk hq (Lookup.mem hp) hpath
          · cases h
      · next hq =>
        cases h
        exact .unqualified hk (by simpa using hq)
  · rintro (h | ⟨hk, hq⟩ | ⟨hk, hq, hp⟩ | ⟨hk, hq, hp, hpath⟩)
    · exact .inl h
    · exact .inr ⟨_, hk, by simp [hq]⟩
    · exact .inr ⟨_, hk, by simp [hq, hp]⟩
    · obtain ⟨p, hp⟩ := Lookup.exists_of_mem hp
      exact .inr ⟨_, hk, by simp [hq, hp, hpath]⟩

theorem load_offPath_cons (h : enter table path a = .ok (k, p)) :
    load (offPath table (k :: path)) + p.actions.length < load (offPath table path) := by
  obtain ⟨-, -, hp, hpath⟩ := enter_eq_ok.1 h
  have hopen : (offPath table path)[k]? = some p := by rw [getElem?_offPath, if_neg hpath, hp]
  have hload : load (offPath table path) = p.actions.length + 1 + load (offPath table (k :: path)) :=
    load_erase hopen
  omega

/-- The actions with every reference replaced by what the pipe behind it inlines to. -/
def inlined (table : Key.Map Pipe) (path : List Key) : List Action → Result (List Action)
  | [] => .ok []
  | a :: rest =>
    if a.is .pipe then
      match _h : enter table path a with
      | .error e => .error e
      | .ok (k, p) => do
        let flat ← inlined table (k :: path) p.actions
        let out ← inlined table path rest
        return flat ++ out
    else do
      let out ← inlined table path rest
      return a :: out
termination_by actions => load (offPath table path) + actions.length
decreasing_by
  · have := load_offPath_cons _h
    omega
  · simp
  · simp

theorem inlined_nil : inlined table path [] = .ok [] := by rw [inlined]

theorem inlined_keep (ha : a.is .pipe = false) :
    inlined table path (a :: rest) = (a :: ·) <$> inlined table path rest := by
  rw [inlined, if_neg (by simp [ha])]
  exact bind_pure_comp _ _

theorem inlined_fault (ha : a.is .pipe = true) (h : enter table path a = .error e) :
    inlined table path (a :: rest) = .error e := by
  rw [inlined, if_pos ha]
  split
  · next h' =>
    cases h.symm.trans h'
    rfl
  · next h' => cases h.symm.trans h'

theorem inlined_enter (ha : a.is .pipe = true) (h : enter table path a = .ok (k, p)) :
    inlined table path (a :: rest) =
      inlined table (k :: path) p.actions >>= fun flat => (flat ++ ·) <$> inlined table path rest := by
  rw [inlined, if_pos ha]
  split
  · next h' => cases h.symm.trans h'
  · next h' =>
    cases h.symm.trans h'
    exact bind_congr fun flat => bind_pure_comp _ _

/-! ## What inlines -/

/-- Some action of the list is a reference to the key. -/
def Mentions (actions : List Action) (k : Key) : Prop :=
  ∃ a ∈ actions, a.is .pipe = true ∧ a.reference = .ok k

/-- The pipe of a key mentions another key. -/
def LeadsTo (table : Key.Map Pipe) (j k : Key) : Prop := ∃ p, table[j]? = some p ∧ Mentions p.actions k

theorem mentions_cons :
    Mentions (a :: rest) k ↔ (a.is .pipe = true ∧ a.reference = .ok k) ∨ Mentions rest k := by
  simp [Mentions]

theorem Mentions.tail (h : Mentions rest k) : Mentions (a :: rest) k := mentions_cons.2 (.inr h)

theorem mentions_keep (ha : a.is .pipe = false) : Mentions (a :: rest) k ↔ Mentions rest k := by
  simp [mentions_cons, ha]

/-- No chain of references leads back to a key that inlined actions mention. -/
theorem Inlines.not_leadsTo_self (h : Inlines (named table) actions out) (hk : Mentions actions k) :
    ¬ Relation.TransGen (LeadsTo table) k k := by
  induction h generalizing k with
  | nil => simp [Mentions] at hk
  | keep ha _ ih => exact ih ((mentions_keep ha).1 hk)
  | inline _ hj hp _ _ ihflat ih =>
    obtain ⟨-, hk⟩ | hk := mentions_cons.1 hk
    · cases hj.symm.trans hk
      intro hcycle
      -- a chain back to the key can be turned round to one of a key that its pipe mentions
      obtain ⟨i, ⟨q, hq, hi⟩, hback⟩ := Relation.TransGen.head'_iff.1 hcycle
      cases (named_eq_some.1 hp).2.symm.trans hq
      exact ihflat hi (Relation.TransGen.tail' hback ⟨_, hq, hi⟩)
    · exact ih hk

/-- Inlined actions are inlined along any path that nothing which they mention leads to. -/
theorem inlined_of_inlines (h : Inlines (named table) actions out)
    (hpath : ∀ j, Mentions actions j → ∀ k ∈ path, ¬ Relation.ReflTransGen (LeadsTo table) j k) :
    inlined table path actions = .ok out := by
  induction h generalizing path with
  | nil => exact inlined_nil
  | keep ha _ ih =>
    rw [inlined_keep ha, ih fun j hj => hpath j hj.tail]
    rfl
  | @inline a k p flat rest out ha hk hp hflat _ ihflat ih =>
    obtain ⟨hq, hp⟩ := named_eq_some.1 hp
    have hmentions : Mentions (a :: rest) k := mentions_cons.2 (.inl ⟨ha, hk⟩)
    have hoff : k ∉ path := fun hmem => hpath k hmentions k hmem .refl
    have hinner : ∀ j, Mentions p.actions j → ∀ i ∈ k :: path,
        ¬ Relation.ReflTransGen (LeadsTo table) j i := by
      intro j hj i hi hchain
      obtain rfl | hi := List.mem_cons.1 hi
      · exact hflat.not_leadsTo_self hj (.tail' hchain ⟨p, hp, hj⟩)
      · exact hpath k hmentions i hi (.head ⟨p, hp, hj⟩ hchain)
    rw [inlined_enter ha (enter_eq_ok.2 ⟨hk, hq, hp, hoff⟩), ihflat hinner, Result.ok_bind,
      ih fun j hj => hpath j hj.tail]
    rfl

theorem inlines_of_inlined (h : inlined table path actions = .ok out) :
    Inlines (named table) actions out := by
  induction path, actions using inlined.induct table generalizing out with
  | case1 path =>
    cases inlined_nil.symm.trans h
    exact .nil
  | case2 path a rest ha e he =>
    cases (inlined_fault ha he).symm.trans h
  | case3 path a rest ha k p hp ihflat ih =>
    rw [inlined_enter ha hp] at h
    obtain ⟨flat, hflat, h⟩ := Result.bind_eq_ok.1 h
    obtain ⟨more, hmore, rfl⟩ := Result.map_eq_ok.1 h
    obtain ⟨hk, hq, hp, -⟩ := enter_eq_ok.1 hp
    exact .inline ha hk (named_eq_some.2 ⟨hq, hp⟩) (ihflat hflat) (ih hmore)
  | case4 path a rest ha ih =>
    have ha : a.is .pipe = false := by simpa using ha
    rw [inlined_keep ha] at h
    obtain ⟨more, hmore, rfl⟩ := Result.map_eq_ok.1 h
    exact .keep ha (ih hmore)

/-! ## The memo -/

/-- A memo along a path: what it holds is inlined, what its pipes mention is in it as well, and nothing of
it is on the path. -/
structure Memo.Settled (table : Key.Map Pipe) (path : List Key) (memo : Memo) : Prop where
  sound : Memo.Sound (named table) memo
  closed : ∀ k p, k ∈ memo → table[k]? = some p → ∀ j, Mentions p.actions j → j ∈ memo
  off : ∀ k ∈ path, k ∉ memo

variable {memo : Memo} {flat : List Action}

theorem Memo.Settled.empty : Memo.Settled table path ∅ where
  sound := .empty
  closed k p h := by simp at h
  off k _ := by simp

theorem Memo.Settled.enter (h : memo.Settled table path) (hk : k ∉ memo) :
    memo.Settled table (k :: path) where
  sound := h.sound
  closed := h.closed
  off := List.forall_mem_cons.2 ⟨hk, h.off⟩

theorem Memo.Settled.insert (h : memo.Settled table (k :: path)) (hpath : k ∉ path)
    (hq : k.isQualified = true) (hp : table[k]? = some p) (hflat : Inlines (named table) p.actions flat)
    (hmentions : ∀ j, Mentions p.actions j → j ∈ memo) :
    Memo.Settled table path (memo.insert k flat) where
  sound := h.sound.insert (named_eq_some.2 ⟨hq, hp⟩) hflat
  closed i q hi hiq j hj := by
    rw [Std.ExtTreeMap.mem_insert, Std.compare_eq_iff_eq] at hi ⊢
    obtain rfl | hi := hi
    · cases hp.symm.trans hiq
      exact .inr (hmentions j hj)
    · exact .inr (h.closed i q hi hiq j hj)
  off i hi := by
    rw [Std.ExtTreeMap.mem_insert, Std.compare_eq_iff_eq, not_or]
    exact ⟨fun heq => hpath (heq ▸ hi), h.off i (List.mem_cons_of_mem _ hi)⟩

/-- What a pipe of the memo mentions leads to keys of the memo alone. -/
theorem Memo.Settled.mem_of_leadsTo (h : memo.Settled table path) (hj : j ∈ memo)
    (hchain : Relation.ReflTransGen (LeadsTo table) j k) : k ∈ memo := by
  induction hchain with
  | refl => exact hj
  | tail _ hstep ih =>
    obtain ⟨p, hp, hmentions⟩ := hstep
    exact h.closed _ p ih hp _ hmentions

/-- A key of the memo can be followed, and its pipe inlines to what the memo holds. -/
theorem Memo.Settled.inlined_eq (h : memo.Settled table path) (hk : a.reference = .ok k)
    (hm : memo[k]? = some flat) :
    ∃ p, Pipe.enter table path a = .ok (k, p) ∧ inlined table (k :: path) p.actions = .ok flat := by
  obtain ⟨p, hp, hflat⟩ := h.sound k flat hm
  obtain ⟨hq, hp⟩ := named_eq_some.1 hp
  have hmem : k ∈ memo := Lookup.mem hm
  refine ⟨p, enter_eq_ok.2 ⟨hk, hq, hp, fun hpath => h.off k hpath hmem⟩, ?_⟩
  refine inlined_of_inlines hflat fun j hj i hi hchain => ?_
  have hjm : j ∈ memo := h.closed k p hmem hp j hj
  obtain rfl | hi := List.mem_cons.1 hi
  · exact hflat.not_leadsTo_self hj (.tail' hchain ⟨p, hp, hj⟩)
  · exact h.off i hi (h.mem_of_leadsTo hjm hchain)

/-- Expanding answers what inlining does, and remembers every key that the actions mention. -/
theorem expand_of_inlined_ok (h : inlined table path actions = .ok out) (hs : memo.Settled table path) :
    ∃ next, expand table (offPath table path) actions memo = .ok (out, next) ∧
      next.Settled table path ∧ (∀ k ∈ memo, k ∈ next) ∧ ∀ k, Mentions actions k → k ∈ next := by
  induction path, actions using inlined.induct table generalizing out memo with
  | case1 path =>
    cases inlined_nil.symm.trans h
    exact ⟨memo, expand_nil, hs, fun k hk => hk, by simp [Mentions]⟩
  | case2 path a rest ha e he => cases (inlined_fault ha he).symm.trans h
  | case3 path a rest ha k p hp ihflat ih =>
    rw [inlined_enter ha hp] at h
    obtain ⟨flat, hflat, h⟩ := Result.bind_eq_ok.1 h
    obtain ⟨more, hmore, rfl⟩ := Result.map_eq_ok.1 h
    obtain ⟨hk, hq, hopen, hpath⟩ := enter_eq_ok.1 hp
    cases hm : memo[k]? with
    | some known =>
      obtain ⟨p', hp', hknown⟩ := hs.inlined_eq hk hm
      cases hp.symm.trans hp'
      cases hflat.symm.trans hknown
      obtain ⟨next, hnext, hsettled, hkept, hmentions⟩ := ih hmore hs
      refine ⟨next, by rw [expand_known ha hk hm, hnext]; rfl, hsettled, hkept, fun j hj => ?_⟩
      obtain ⟨-, hj⟩ | hj := mentions_cons.1 hj
      · cases hk.symm.trans hj
        exact hkept k (Lookup.mem hm)
      · exact hmentions j hj
    | none =>
      have hstill : (offPath table path)[k]? = some p := by rw [getElem?_offPath, if_neg hpath, hopen]
      have hnew : k ∉ memo := by simpa using hm
      obtain ⟨between, hbetween, hinner, hgrown, hall⟩ := ihflat hflat (hs.enter hnew)
      have hadded := hinner.insert hpath hq hopen (inlines_of_inlined hflat) hall
      obtain ⟨next, hnext, hsettled, hkept, hmentions⟩ := ih hmore hadded
      have hbetween : expand table ((offPath table path).erase k) p.actions memo = .ok (flat, between) :=
        hbetween
      refine ⟨next, by rw [expand_open ha hk hm hq hstill, hbetween, Result.ok_bind, hnext]; rfl, hsettled,
        fun j hj => hkept j ?_, fun j hj => ?_⟩
      · exact Std.ExtTreeMap.mem_insert.2 (.inr (hgrown j hj))
      · obtain ⟨-, hj⟩ | hj := mentions_cons.1 hj
        · cases hk.symm.trans hj
          exact hkept k Std.ExtTreeMap.mem_insert_self
        · exact hmentions j hj
  | case4 path a rest ha ih =>
    have ha : a.is .pipe = false := by simpa using ha
    rw [inlined_keep ha] at h
    obtain ⟨more, hmore, rfl⟩ := Result.map_eq_ok.1 h
    obtain ⟨next, hnext, hsettled, hkept, hmentions⟩ := ih hmore hs
    exact ⟨next, by rw [expand_keep ha, hnext]; rfl, hsettled, hkept,
      fun j hj => hmentions j ((mentions_keep ha).1 hj)⟩

theorem expand_closed {stillOpen : Key.Map Pipe} (ha : a.is .pipe = true) (hk : a.reference = .ok k)
    (hm : memo[k]? = none) (hq : k.isQualified = true) (hp : stillOpen[k]? = none) :
    expand table stillOpen (a :: rest) memo = .error (closedReference table k) := by
  rw [expand]
  simp only [ha, hk, Result.ok_bind, hm, hq, Bool.not_true, Bool.false_eq_true, ↓reduceIte]
  split
  · rfl
  · simp_all

/-- A reference that cannot be followed stops expanding with its own error: it is not in the memo. -/
theorem expand_fault (ha : a.is .pipe = true) (h : enter table path a = .error e)
    (hs : memo.Settled table path) :
    expand table (offPath table path) (a :: rest) memo = .error e := by
  have hunknown : ∀ {k}, a.reference = .ok k → memo[k]? = none := by
    intro k hk
    cases hm : memo[k]? with
    | none => rfl
    | some flat =>
      obtain ⟨p, hp, -⟩ := hs.inlined_eq hk hm
      cases h.symm.trans hp
  cases enter_eq_error.1 h with
  | malformed hk =>
    rw [expand]
    simp [ha, hk]
  | unqualified hk hq =>
    rw [expand]
    simp [ha, hk, hunknown hk, hq]
  | @missing k hk hq hp =>
    have hclosed : (offPath table path)[k]? = none := by
      rw [getElem?_offPath, Std.ExtTreeMap.getElem?_eq_none hp, ite_self]
    rw [expand_closed ha hk (hunknown hk) hq hclosed, closedReference, if_neg hp]
  | @onPath k hk hq hp hpath =>
    have hclosed : (offPath table path)[k]? = none := by rw [getElem?_offPath, if_pos hpath]
    rw [expand_closed ha hk (hunknown hk) hq hclosed, closedReference, if_pos hp]

theorem expand_of_inlined_error (h : inlined table path actions = .error e)
    (hs : memo.Settled table path) : expand table (offPath table path) actions memo = .error e := by
  induction path, actions using inlined.induct table generalizing memo with
  | case1 path => cases inlined_nil.symm.trans h
  | case2 path a rest ha e' he =>
    cases (inlined_fault ha he).symm.trans h
    exact expand_fault ha he hs
  | case3 path a rest ha k p hp ihflat ih =>
    rw [inlined_enter ha hp] at h
    obtain ⟨hk, hq, hopen, hpath⟩ := enter_eq_ok.1 hp
    have hstill : (offPath table path)[k]? = some p := by rw [getElem?_offPath, if_neg hpath, hopen]
    cases hm : memo[k]? with
    | some known =>
      obtain ⟨p', hp', hknown⟩ := hs.inlined_eq hk hm
      cases hp.symm.trans hp'
      rw [hknown, Result.ok_bind] at h
      rw [expand_known ha hk hm, ih (Result.map_eq_error.1 h) hs]
      rfl
    | none =>
      have hnew : memo.Settled table (k :: path) := hs.enter (by simpa using hm)
      rw [expand_open ha hk hm hq hstill]
      obtain hflat | ⟨flat, hflat, h⟩ := Result.bind_eq_error.1 h
      · exact Result.bind_eq_error.2 (.inl (ihflat hflat hnew))
      · obtain ⟨between, hbetween, hinner, -, hall⟩ := expand_of_inlined_ok hflat hnew
        have hadded := hinner.insert hpath hq hopen (inlines_of_inlined hflat) hall
        refine Result.bind_eq_error.2 (.inr ⟨_, hbetween, ?_⟩)
        rw [ih (Result.map_eq_error.1 h) hadded]
        rfl
  | case4 path a rest ha ih =>
    have ha : a.is .pipe = false := by simpa using ha
    rw [inlined_keep ha] at h
    rw [expand_keep ha, ih (Result.map_eq_error.1 h) hs]
    rfl

/-- Flattening is inlining; the memo does not show. -/
theorem flatten_eq_inlined (table : Key.Map Pipe) (p : Pipe) :
    p.flatten table = (inlined table [] p.actions).map fun out => { p with actions := out } := by
  have hstart : Memo.Settled table [] ∅ := .empty
  rw [flatten]
  cases h : inlined table [] p.actions with
  | error e =>
    have hexpand : expand table table p.actions ∅ = .error e := expand_of_inlined_error h hstart
    rw [hexpand]
    rfl
  | ok out =>
    obtain ⟨next, hnext, -⟩ := expand_of_inlined_ok h hstart
    have hexpand : expand table table p.actions ∅ = .ok (out, next) := hnext
    rw [hexpand]
    rfl

end PagePipes.Pipe
