import PagePipes.Pipe.Flatten
import PagePipes.Proofs.Lookup
import PagePipes.Proofs.Result

set_option autoImplicit false

/-!
# Flattening as inlining

`Inlines` is the plain meaning of flattening: every reference gives way to what the pipe that it
names inlines to. It has at most one result, and flattening computes it: the memo only holds inlined
actions, so what it saves does not show.
-/
namespace PagePipes.Pipe

/-- Actions with every reference replaced, at all depths, by the actions of the pipe that it
names. -/
inductive Inlines (lookup : Key → Option Pipe) : List Action → List Action → Prop
  | nil : Inlines lookup [] []
  | keep {a : Action} {rest out : List Action} (ha : a.is .pipe = false)
      (h : Inlines lookup rest out) : Inlines lookup (a :: rest) (a :: out)
  | inline {a : Action} {k : Key} {p : Pipe} {flat rest out : List Action} (ha : a.is .pipe = true)
      (hk : a.reference = .ok k) (hp : lookup k = some p) (hflat : Inlines lookup p.actions flat)
      (h : Inlines lookup rest out) : Inlines lookup (a :: rest) (flat ++ out)

/-- The pipe that flattening finds for a reference; a bare name finds none. -/
def named (table : Key.Map Pipe) (k : Key) : Option Pipe :=
  if k.isQualified then table[k]? else none

variable {table stillOpen : Key.Map Pipe} {lookup : Key → Option Pipe}

theorem Inlines.unique {actions out other : List Action} (h : Inlines lookup actions out)
    (h' : Inlines lookup actions other) : out = other := by
  induction h generalizing other with
  | nil =>
    cases h'
    rfl
  | keep ha _ ih =>
    cases h' with
    | keep _ hrest => rw [ih hrest]
    | inline hb => simp [ha] at hb
  | inline ha hk hp _ _ ihflat ih =>
    cases h' with
    | keep hb => simp [ha] at hb
    | inline _ hk' hp' hflat' hrest =>
      cases hk.symm.trans hk'
      cases hp.symm.trans hp'
      rw [ihflat hflat', ih hrest]

theorem Inlines.flat {actions out : List Action} (h : Inlines lookup actions out) :
    ∀ a ∈ out, a.is .pipe = false := by
  induction h with
  | nil => simp
  | keep ha _ ih => simpa [ha] using ih
  | inline _ _ _ _ _ ihflat ih =>
    intro a ha
    exact (List.mem_append.1 ha).elim (ihflat a) (ih a)

/-- Inlined actions come from the actions themselves or from a pipe that is looked up. -/
theorem Inlines.mem {actions out : List Action} {a : Action} (h : Inlines lookup actions out)
    (ha : a ∈ out) : a ∈ actions ∨ ∃ k p, lookup k = some p ∧ a ∈ p.actions := by
  induction h with
  | nil => exact .inl ha
  | keep _ _ ih =>
    rcases List.mem_cons.1 ha with rfl | ha
    · exact .inl (by simp)
    · exact (ih ha).imp_left (List.mem_cons_of_mem _)
  | inline _ _ hp _ _ ihflat ih =>
    rcases List.mem_append.1 ha with ha | ha
    · exact .inr ((ihflat ha).elim (fun ha => ⟨_, _, hp, ha⟩) id)
    · exact (ih ha).imp_left (List.mem_cons_of_mem _)

/-- Pipes whose references mean corresponding pipes inline to the same actions. -/
theorem Inlines.transfer {source : Key → Option Pipe} {R : Action → Action → Prop}
    (keep : ∀ a b, R a b → b.is .pipe = false → a = b)
    (inline : ∀ a b k q, R a b → b.is .pipe = true → b.reference = .ok k → lookup k = some q →
      a.is .pipe = true ∧ ∃ j p, a.reference = .ok j ∧ source j = some p ∧
        List.Forall₂ R p.actions q.actions)
    {before actions out : List Action} (h : Inlines lookup actions out)
    (hR : List.Forall₂ R before actions) : Inlines source before out := by
  induction h generalizing before with
  | nil =>
    cases hR
    exact .nil
  | keep ha _ ih =>
    cases hR with
    | cons hab hrest =>
      cases keep _ _ hab ha
      exact .keep ha (ih hrest)
  | inline hb hk hq _ _ ihflat ih =>
    cases hR with
    | cons hab hrest =>
      obtain ⟨ha, j, p, hj, hp, hactions⟩ := inline _ _ _ _ hab hb hk hq
      exact .inline ha hj hp (ihflat hactions) (ih hrest)

section expand

variable {a : Action} {rest out : List Action} {k : Key} {memo next : Memo}

theorem expand_nil : expand table stillOpen [] memo = .ok ([], memo) := by rw [expand]

theorem expand_keep (ha : a.is .pipe = false) :
    expand table stillOpen (a :: rest) memo =
      (fun r => (a :: r.1, r.2)) <$> expand table stillOpen rest memo := by
  rw [expand]
  simp [ha]

theorem expand_known (ha : a.is .pipe = true) (hk : a.reference = .ok k) {flat : List Action}
    (hm : memo[k]? = some flat) :
    expand table stillOpen (a :: rest) memo =
      (fun r => (flat ++ r.1, r.2)) <$> expand table stillOpen rest memo := by
  rw [expand]
  simp [ha, hk, hm]

theorem expand_open (ha : a.is .pipe = true) (hk : a.reference = .ok k) (hm : memo[k]? = none)
    (hq : k.isQualified = true) {p : Pipe} (hp : stillOpen[k]? = some p) :
    expand table stillOpen (a :: rest) memo =
      expand table (stillOpen.erase k) p.actions memo >>= fun r =>
        (fun s => (r.1 ++ s.1, s.2)) <$> expand table stillOpen rest (r.2.insert k r.1) := by
  rw [expand]
  simp only [ha, hk, Result.ok_bind, hm, hq, Bool.not_true, Bool.false_eq_true, ↓reduceIte]
  split
  · simp_all
  · simp_all

/-- An action that expanding does not stop at is kept, or its reference is in the memo, or it names
an open pipe. -/
theorem reference_of_expand (ha : a.is .pipe = true) {r : List Action × Memo}
    (h : expand table stillOpen (a :: rest) memo = .ok r) :
    ∃ k, a.reference = .ok k ∧ (memo[k]? = none → k.isQualified = true ∧ k ∈ stillOpen) := by
  rw [expand] at h
  simp only [ha, Bool.not_true, Bool.false_eq_true, ↓reduceIte] at h
  obtain ⟨k, hk, h⟩ := Result.bind_eq_ok.1 h
  refine ⟨k, hk, fun hm => ?_⟩
  simp only [hm] at h
  cases hq : k.isQualified with
  | false => simp [hq] at h
  | true =>
    refine ⟨rfl, ?_⟩
    simp only [hq, Bool.not_true, Bool.false_eq_true, ↓reduceIte] at h
    split at h
    · simp at h
    · next p hp => exact Lookup.mem hp

end expand

def Memo.Sound (lookup : Key → Option Pipe) (memo : Memo) : Prop :=
  ∀ k flat, memo[k]? = some flat → ∃ p, lookup k = some p ∧ Inlines lookup p.actions flat

theorem Memo.Sound.empty : Memo.Sound lookup ∅ := by
  intro k flat h
  simp at h

theorem Memo.Sound.insert {memo : Memo} {k : Key} {p : Pipe} {flat : List Action}
    (hs : Memo.Sound lookup memo) (hp : lookup k = some p)
    (hflat : Inlines lookup p.actions flat) : Memo.Sound lookup (memo.insert k flat) := by
  intro j actions h
  rw [Std.ExtTreeMap.getElem?_insert] at h
  by_cases hk : k = j
  · subst hk
    simp only [Std.compare_self, ↓reduceIte, Option.some.injEq] at h
    exact ⟨p, hp, h ▸ hflat⟩
  · exact hs j actions (by simpa [hk] using h)

/-- What expanding answers is inlined, and so is all that it has remembered by then. -/
theorem inlines_of_expand
    {actions : List Action} {memo : Memo} {out : List Action} {next : Memo}
    (hlookup : ∀ k p, stillOpen[k]? = some p → k.isQualified = true → lookup k = some p)
    (h : expand table stillOpen actions memo = .ok (out, next)) (hs : Memo.Sound lookup memo) :
    Inlines lookup actions out ∧ Memo.Sound lookup next := by
  -- open pipes are looked up as in the table, and the memo is sound, at every call
  induction stillOpen, actions, memo using expand.induct generalizing out next with
  | case1 stillOpen memo =>
    cases expand_nil.symm.trans h
    exact ⟨.nil, hs⟩
  | case2 stillOpen a rest memo ha ih =>
    have ha : a.is .pipe = false := by simpa using ha
    rw [expand_keep ha] at h
    obtain ⟨r, hr, heq⟩ := Result.map_eq_ok.1 h
    cases heq
    obtain ⟨hrest, hnext⟩ := ih hlookup hr hs
    exact ⟨.keep ha hrest, hnext⟩
  | case3 stillOpen a rest memo ha ihrest ihflat ihnew =>
    have ha : a.is .pipe = true := by simpa using ha
    obtain ⟨k, hk, hopen⟩ := reference_of_expand ha h
    cases hm : memo[k]? with
    | some flat =>
      rw [expand_known ha hk hm] at h
      obtain ⟨r, hr, heq⟩ := Result.map_eq_ok.1 h
      cases heq
      obtain ⟨p, hp, hflat⟩ := hs k flat hm
      obtain ⟨hrest, hnext⟩ := ihrest hlookup hr hs
      exact ⟨.inline ha hk hp hflat hrest, hnext⟩
    | none =>
      obtain ⟨hq, hmem⟩ := hopen hm
      obtain ⟨p, hp⟩ := Lookup.exists_of_mem hmem
      rw [expand_open ha hk hm hq hp] at h
      obtain ⟨⟨flat, between⟩, hr, h⟩ := Result.bind_eq_ok.1 h
      obtain ⟨s, hrest, heq⟩ := Result.map_eq_ok.1 h
      cases heq
      have hinner : ∀ j q, (stillOpen.erase k)[j]? = some q → j.isQualified = true →
          lookup j = some q := by
        intro j q hj
        rw [Std.ExtTreeMap.getElem?_erase] at hj
        by_cases hkj : k = j
        · simp [hkj] at hj
        · exact hlookup j q (by simpa [hkj] using hj)
      obtain ⟨hflat, hbetween⟩ := ihflat k p hp hinner hr hs
      have hlook := hlookup k p hp hq
      obtain ⟨hout, hnext⟩ := ihnew k flat between hlookup hrest (hbetween.insert hlook hflat)
      exact ⟨.inline ha hk hlook hflat hout, hnext⟩

theorem named_eq_some {k : Key} {p : Pipe} :
    named table k = some p ↔ k.isQualified = true ∧ table[k]? = some p := by
  unfold named
  split <;> simp_all

theorem flatten_eq_ok {p flat : Pipe} :
    p.flatten table = .ok flat ↔
      ∃ memo, expand table table p.actions ∅ = .ok (flat.actions, memo) ∧ flat.point = p.point := by
  unfold flatten
  cases expand table table p.actions ∅ with
  | error e => simp [Except.map]
  | ok r =>
    obtain ⟨actions, memo⟩ := r
    simp only [Except.map, Except.ok.injEq, Prod.mk.injEq]
    constructor
    · rintro rfl
      exact ⟨memo, ⟨rfl, rfl⟩, rfl⟩
    · rintro ⟨_, ⟨rfl, -⟩, hp⟩
      cases flat
      simp_all

theorem inlines_of_flatten {p flat : Pipe} (h : p.flatten table = .ok flat) :
    Inlines (named table) p.actions flat.actions ∧ flat.point = p.point := by
  obtain ⟨memo, hexpand, hpoint⟩ := flatten_eq_ok.1 h
  have hlookup : ∀ k p, table[k]? = some p → k.isQualified = true → named table k = some p :=
    fun k p hp hq => named_eq_some.2 ⟨hq, hp⟩
  exact ⟨(inlines_of_expand hlookup hexpand .empty).1, hpoint⟩

/-- Every reference of the actions names a pipe of the table whose rank is below a bound. -/
def Ranked (table : Key.Map Pipe) (rank : Key → Nat) (bound : Nat) (actions : List Action) : Prop :=
  ∀ a ∈ actions, a.is .pipe = true →
    ∃ k p, a.reference = .ok k ∧ k.isQualified = true ∧ table[k]? = some p ∧ rank k < bound

/-- Where references go down in rank, expanding succeeds with the pipes of lower rank open. -/
theorem expand_ok_of_ranked {rank : Key → Nat}
    (hrank : ∀ k p, table[k]? = some p → Ranked table rank (rank k) p.actions)
    {bound : Nat} {actions : List Action} (memo : Memo) (h : Ranked table rank bound actions)
    (hopen : ∀ k p, table[k]? = some p → rank k < bound → stillOpen[k]? = some p) :
    ∃ r, expand table stillOpen actions memo = .ok r := by
  -- the outer induction goes into the pipe of a reference, the inner one along the actions
  induction bound using Nat.strongRecOn generalizing stillOpen actions memo with
  | ind bound outer =>
    induction actions generalizing memo with
    | nil => exact ⟨_, expand_nil⟩
    | cons a rest ih =>
      have hrest : Ranked table rank bound rest := fun b hb => h b (List.mem_cons_of_mem _ hb)
      cases ha : a.is .pipe with
      | false =>
        obtain ⟨r, hr⟩ := ih memo hrest
        exact ⟨_, by rw [expand_keep ha, hr]; rfl⟩
      | true =>
        obtain ⟨k, p, hk, hq, hp, hlt⟩ := h a (by simp) ha
        cases hm : memo[k]? with
        | some flat =>
          obtain ⟨r, hr⟩ := ih memo hrest
          exact ⟨_, by rw [expand_known ha hk hm, hr]; rfl⟩
        | none =>
          -- pipes of lower rank than the reference are other pipes, so they stay open
          have hinner : ∀ j q, table[j]? = some q → rank j < rank k →
              (stillOpen.erase k)[j]? = some q := by
            intro j q hj hjk
            have hne : k ≠ j := by
              rintro rfl
              omega
            simpa [Std.ExtTreeMap.getElem?_erase, hne] using hopen j q hj (by omega)
          obtain ⟨r, hr⟩ := outer (rank k) hlt memo (hrank k p hp) hinner
          obtain ⟨s, hs⟩ := ih (r.2.insert k r.1) hrest
          exact ⟨_, by rw [expand_open ha hk hm hq (hopen k p hp hlt), hr, Result.ok_bind, hs]; rfl⟩

theorem flatten_ok_of_ranked {rank : Key → Nat}
    (hrank : ∀ k p, table[k]? = some p → Ranked table rank (rank k) p.actions) {p : Pipe}
    {bound : Nat} (h : Ranked table rank bound p.actions) : ∃ flat, p.flatten table = .ok flat := by
  have hopen : ∀ k q, table[k]? = some q → rank k < bound → table[k]? = some q :=
    fun _ _ hk _ => hk
  obtain ⟨r, hr⟩ := expand_ok_of_ranked hrank ∅ h hopen
  exact ⟨_, by rw [flatten, hr]; rfl⟩

end PagePipes.Pipe
