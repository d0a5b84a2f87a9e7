import PagePipes.Index.Qualified
import PagePipes.Proofs.Pipe.Written

set_option autoImplicit false

/-!
# Repointed resources

A resource is repointed when every reference in it gives way to a qualified one and nothing else
changes. Renaming the references of a resource and then qualifying it repoints it: a reference goes
where the resolver sends its new key.
-/
namespace PagePipes

/-- An action that is no reference stays as it is; a reference moves to a target of its key. -/
inductive Action.Repointed (target : Key → Key → Prop) (a : Action) : Action → Prop
  | stay (ha : a.is .pipe = false) : Repointed target a a
  | move {k t : Key} (ha : a.is .pipe = true) (hk : a.reference = .ok k) (ht : target k t)
      (hb : (a.setKey t).reference = .ok t) : Repointed target a (a.setKey t)

def Column.Repointed (target : Key → Key → Prop) (c d : Column) : Prop :=
  d.aliasName = c.aliasName ∧ target c.pipe d.pipe

inductive Spec.Repointed (target : Key → Key → Prop) : Spec → Spec → Prop
  | pipe {p q : Pipe} (point : q.point = p.point)
      (actions : List.Forall₂ (Action.Repointed target) p.actions q.actions) :
      Repointed target (.pipe p) (.pipe q)
  | view {v w : View} (aliasName : w.aliasName = v.aliasName)
      (columns : List.Forall₂ (Column.Repointed target) v.columns w.columns) :
      Repointed target (.view v) (.view w)
  | rule {x y : Rule} (predicate : y.predicate = x.predicate) (labels : y.labels = x.labels)
      (pipes : List.Forall₂ target x.pipes y.pipes) : Repointed target (.rule x) (.rule y)

structure Resource.Repointed (target : Key → Key → Prop) (r q : Resource) : Prop where
  version : q.version = r.version
  metadata : q.metadata = r.metadata
  spec : Spec.Repointed target r.spec q.spec

/-- A resolver that answers keys of resources only. -/
def Exact (resolve : Key → Result Key) : Prop :=
  ∀ k t, resolve k = .ok t → t.isQualified = true ∧ t.Valid

/-- A renaming that leaves names as they are and gives qualified keys. -/
def Renaming.KeepsNames (m : Renaming) : Prop :=
  ∀ k t : Key, m[k]? = some t → t.name = k.name ∧ t.isQualified = true ∧ t.Valid

namespace Renaming

@[simp] theorem key_empty (k : Key) : (∅ : Renaming).key k = k := by simp [key]

@[simp] theorem resource_empty (r : Resource) : (∅ : Renaming).resource r = r := by
  have haction : (∅ : Renaming).action = id := by
    funext a
    unfold action
    cases a.reference.toOption <;> simp
  have hkey : (∅ : Renaming).key = id := funext key_empty
  obtain ⟨version, metadata, spec⟩ := r
  cases spec <;> simp [resource, spec, haction, hkey]

end Renaming

namespace Action

variable {a b : Action} {k t : Key} {target : Key → Key → Prop}

theorem reference_eq_ok (h : a.reference = .ok k) :
    ∃ n, a.string? "name" = some n ∧ k.name = Key.lower n ∧ Key.validateName k.name = .ok () := by
  unfold reference at h
  cases hn : a.string? "name" with
  | none => simp [hn] at h
  | some n =>
    simp only [hn] at h
    obtain ⟨⟨⟩, hv, h⟩ := Result.bind_eq_ok.1 h
    have hname : k.name = Key.lower n := by
      cases hd : a.string? "digest" with
      | none =>
        simp only [hd] at h
        cases Result.pure_eq_ok.1 h
        rfl
      | some d =>
        simp only [hd] at h
        by_cases he : d = ""
        · simp only [he, ↓reduceIte] at h
          cases Result.pure_eq_ok.1 h
          rfl
        · simp only [he, ↓reduceIte] at h
          obtain ⟨⟨⟩, -, h⟩ := Result.bind_eq_ok.1 h
          cases Result.pure_eq_ok.1 h
          rfl
    exact ⟨n, rfl, hname, by rwa [hname]⟩

theorem reference_setDigest {d : String} (h : a.reference = .ok k)
    (hd : Key.validateDigest d = .ok ()) :
    (a.setString "digest" d).reference = .ok (.exact k.name d) := by
  obtain ⟨n, hn, hname, hv⟩ := reference_eq_ok h
  have hne : d ≠ "" := by
    rintro rfl
    exact absurd (Key.validateDigest_eq_ok.1 hd).1 (by decide)
  rw [hname] at hv
  simp [reference, hn, hname, hv, hne, hd, Key.lower_of_validDigest hd]

theorem setKey_setDigest {d : String} (ht : t.isQualified = true) :
    (a.setString "digest" d).setKey t = a.setKey t := by
  obtain ⟨n, _ | e⟩ := t
  · simp [Key.isQualified] at ht
  · simp only [setKey, setString, set, Action.mk.injEq]
    apply Std.ExtTreeMap.ext_getElem?
    intro name
    simp only [Std.ExtTreeMap.getElem?_insert]
    by_cases hd : "digest" = name
    · simp [hd]
    · simp [hd]

theorem is_renamed (m : Renaming) : (m.action a).is .pipe = a.is .pipe := by
  unfold Renaming.action
  split
  · split
    · split
      · rw [is, is, string?_setString, if_neg (by decide)]
      · rfl
    · rfl
  · rfl

/-- Renaming the reference of an action renames the key that it refers to. -/
theorem reference_renamed {m : Renaming} (hm : m.KeepsNames) (ha : a.is .pipe = true)
    (h : a.reference = .ok k) :
    (m.action a).reference = .ok (m.key k) ∧
      ∀ t : Key, t.isQualified = true → (m.action a).setKey t = a.setKey t := by
  simp only [Renaming.action, ha, ↓reduceIte, h, Renaming.key, Except.toOption, Option.bind_some]
  cases hk : m[k]? with
  | none => exact ⟨h, fun _ _ => rfl⟩
  | some t =>
    obtain ⟨hname, hq, hv⟩ := hm k t hk
    obtain ⟨n, _ | d⟩ := t
    · simp [Key.isQualified] at hq
    · have hn : n = k.name := hname
      subst hn
      exact ⟨reference_setDigest h (hv.digest d rfl), fun _ ht => setKey_setDigest ht⟩

theorem repointed_of_qualify {m : Renaming} (hm : m.KeepsNames) {resolve : Key → Result Key}
    (hr : Exact resolve) (h : Pipe.qualifyAction resolve (m.action a) = .ok b) :
    Repointed (fun k t => resolve (m.key k) = .ok t) a b := by
  unfold Pipe.qualifyAction at h
  rw [is_renamed] at h
  cases ha : a.is .pipe with
  | false =>
    simp only [ha, Bool.false_eq_true, ↓reduceIte, Result.pure_eq_ok] at h
    have hb : b = a := by simp [← h, Renaming.action, ha]
    rw [hb]
    exact .stay ha
  | true =>
    simp only [ha, ↓reduceIte] at h
    obtain ⟨j, hj, h⟩ := Result.bind_eq_ok.1 h
    obtain ⟨t, ht, h⟩ := Result.bind_eq_ok.1 h
    cases Result.pure_eq_ok.1 h
    obtain ⟨hq, hv⟩ := hr j t ht
    cases hk : a.reference with
    | error e => simp [Renaming.action, ha, hk, Except.toOption] at hj
    | ok k =>
      obtain ⟨href, hset⟩ := reference_renamed hm ha hk
      cases href.symm.trans hj
      rw [hset t hq]
      exact .move ha hk ht (reference_setKey hq hv)

theorem Repointed.eq_of_not_pipe (h : Repointed target a b) (hb : b.is .pipe = false) : a = b := by
  cases h with
  | stay => rfl
  | move ha => simp [ha] at hb

theorem Repointed.reference (h : Repointed target a b) (hb : b.is .pipe = true)
    (ht : b.reference = .ok t) : a.is .pipe = true ∧ ∃ k, a.reference = .ok k ∧ target k t := by
  cases h with
  | stay ha => simp [ha] at hb
  | move ha hk htarget href =>
    cases href.symm.trans ht
    exact ⟨ha, _, hk, htarget⟩

theorem Repointed.exists_reference (h : Repointed target a b) (hb : b.is .pipe = true) :
    ∃ k t, a.reference = .ok k ∧ b.reference = .ok t ∧ target k t := by
  cases h with
  | stay ha => simp [ha] at hb
  | move _ hk ht href => exact ⟨_, _, hk, href, ht⟩

theorem Repointed.imp {other : Key → Key → Prop} (h : Repointed target a b)
    (himp : ∀ k t, a.is .pipe = true → a.reference = .ok k → target k t → other k t) :
    Repointed other a b := by
  cases h with
  | stay ha => exact .stay ha
  | move ha hk ht hb => exact .move ha hk (himp _ _ ha hk ht) hb

theorem setKey_setKey : (a.setKey k).setKey k = a.setKey k := by
  obtain ⟨n, _ | d⟩ := k <;>
  · simp only [setKey, setString, set, Action.mk.injEq]
    apply Std.ExtTreeMap.ext_getElem?
    intro name
    simp only [Std.ExtTreeMap.getElem?_insert]
    grind

theorem Repointed.written (h : Repointed target a b) :
    Repointed (fun k t => t = k ∧ ∃ j, target j k) b b := by
  cases h with
  | stay ha => exact .stay ha
  | @move k t ha hk ht hb =>
    have hpipe : (a.setKey t).is .pipe = true := by rwa [is_setKey]
    have hmove : Repointed (fun k t => t = k ∧ ∃ j, target j k) (a.setKey t) ((a.setKey t).setKey t) :=
      .move hpipe hb ⟨rfl, k, ht⟩ (by rwa [setKey_setKey])
    rwa [setKey_setKey] at hmove

theorem kind_of_is_pipe (ha : a.is .pipe = true) : a.kind = .ok .pipe := by
  rw [is, beq_iff_eq, string?] at ha
  unfold kind
  split at ha
  · next s hs =>
    rw [hs]
    cases ha
    rfl
  · cases ha

theorem validate_of_reference (ha : a.is .pipe = true) (hk : a.reference = .ok k) :
    a.validate = .ok () := by
  have hname : a.validateArgument .pipe "name" = .ok () := by
    obtain ⟨n, hn, -⟩ := reference_eq_ok hk
    unfold string? at hn
    unfold validateArgument
    split at hn
    · next s hs => rw [hs]
    · cases hn
  simp only [validate, kind_of_is_pipe ha, Result.ok_bind, ActionKind.requiredArgument?, hname, hk]
  rfl

theorem reference_of_validate (ha : a.is .pipe = true) (h : a.validate = .ok ()) :
    ∃ k, a.reference = .ok k := by
  simp only [validate, kind_of_is_pipe ha, Result.ok_bind, ActionKind.requiredArgument?] at h
  obtain ⟨⟨⟩, -, h⟩ := Result.bind_eq_ok.1 h
  obtain ⟨k, hk, -⟩ := Result.map_eq_ok.1 h
  exact ⟨k, hk⟩

theorem Repointed.validate (h : Repointed target a b) (ha : a.validate = .ok ()) :
    b.validate = .ok () := by
  cases h with
  | stay => exact ha
  | move hpipe hk ht hb => exact validate_of_reference (by rwa [is_setKey]) hb

theorem Repointed.is_eq (h : Repointed target a b) {kind : ActionKind} : b.is kind = a.is kind := by
  cases h with
  | stay => rfl
  | move => rw [is_setKey]

theorem qualify_of_repointed {resolve : Key → Result Key}
    (h : Repointed (fun k t => resolve k = .ok t) a b) : Pipe.qualifyAction resolve a = .ok b := by
  cases h with
  | stay ha => simp [Pipe.qualifyAction, ha]
  | move ha hk ht => simp [Pipe.qualifyAction, ha, hk, ht]

end Action

namespace Pipe

theorem validate_of_repointed {target : Key → Key → Prop} {p q : Pipe}
    (h : List.Forall₂ (Action.Repointed target) p.actions q.actions) (hp : p.validate = .ok ()) :
    q.validate = .ok () := by
  obtain ⟨hne, hactions⟩ := validate_eq_ok.1 hp
  refine validate_eq_ok.2 ⟨fun hnil => hne ?_, fun b hb => ?_⟩
  · rwa [hnil, List.forall₂_nil_right_iff] at h
  · obtain ⟨a, ha, hab⟩ := Result.exists_of_forall₂ h.flip hb
    obtain ⟨hvalid, hplain⟩ := hactions a ha
    exact ⟨hab.validate hvalid, hab.is_eq.trans hplain⟩

theorem mem_references {p : Pipe} {k : Key} :
    k ∈ p.references ↔ ∃ a ∈ p.actions, a.is .pipe = true ∧ a.reference = .ok k := by
  simp only [references, List.mem_filterMap, List.mem_filter, and_assoc]
  constructor
  · rintro ⟨a, ha, hpipe, hk⟩
    refine ⟨a, ha, hpipe, ?_⟩
    cases href : a.reference with
    | error e => simp [href, Except.toOption] at hk
    | ok j => simpa [href, Except.toOption] using hk
  · rintro ⟨a, ha, hpipe, hk⟩
    exact ⟨a, ha, hpipe, by simp [hk, Except.toOption]⟩

end Pipe

namespace Resource

variable {r q : Resource} {target : Key → Key → Prop}

theorem repointed_of_qualify {m : Renaming} (hm : m.KeepsNames) {resolve : Key → Result Key}
    (hr : Exact resolve) (h : (m.resource r).qualify resolve = .ok q) :
    Repointed (fun k t => resolve (m.key k) = .ok t) r q := by
  obtain ⟨spec, hspec, h⟩ := Result.bind_eq_ok.1 h
  cases Result.pure_eq_ok.1 h
  refine ⟨rfl, rfl, ?_⟩
  simp only [Renaming.resource] at hspec
  cases hs : r.spec with
  | pipe p =>
    simp only [hs, Renaming.spec, Spec.qualify] at hspec
    obtain ⟨p', hp, rfl⟩ := Result.map_eq_ok.1 hspec
    obtain ⟨actions, hactions, hp⟩ := Result.bind_eq_ok.1 hp
    cases Result.pure_eq_ok.1 hp
    refine .pipe rfl ?_
    have hall := Result.mapM_eq_ok.1 hactions
    rw [List.forall₂_map_left_iff] at hall
    exact hall.imp fun a b hab => Action.repointed_of_qualify hm hr hab
  | view v =>
    simp only [hs, Renaming.spec, Spec.qualify] at hspec
    obtain ⟨w, hw, rfl⟩ := Result.map_eq_ok.1 hspec
    obtain ⟨columns, hcolumns, hw⟩ := Result.bind_eq_ok.1 hw
    cases Result.pure_eq_ok.1 hw
    refine .view rfl ?_
    have hall := Result.mapM_eq_ok.1 hcolumns
    rw [List.forall₂_map_left_iff] at hall
    refine hall.imp fun c d hcd => ?_
    obtain ⟨t, ht, hd⟩ := Result.bind_eq_ok.1 hcd
    cases Result.pure_eq_ok.1 hd
    exact ⟨rfl, ht⟩
  | rule x =>
    simp only [hs, Renaming.spec, Spec.qualify] at hspec
    obtain ⟨y, hy, rfl⟩ := Result.map_eq_ok.1 hspec
    obtain ⟨pipes, hpipes, hy⟩ := Result.bind_eq_ok.1 hy
    cases Result.pure_eq_ok.1 hy
    refine .rule rfl rfl ?_
    have hall := Result.mapM_eq_ok.1 hpipes
    rwa [List.forall₂_map_left_iff] at hall

theorem Repointed.kind_eq (h : Repointed target r q) : q.kind = r.kind := by
  obtain ⟨-, -, hspec⟩ := h
  unfold kind
  revert hspec
  generalize r.spec = s, q.spec = t
  rintro (_ | _ | _) <;> rfl

section Kinds

variable {p : Pipe} {v : View} {x : Rule} (h : Repointed target r q)

include h

theorem Repointed.of_pipe (hq : q.spec = .pipe p) : ∃ p₀, r.spec = .pipe p₀ ∧
    p.point = p₀.point ∧ List.Forall₂ (Action.Repointed target) p₀.actions p.actions := by
  have hspec := h.spec
  rw [hq] at hspec
  generalize r.spec = spec at hspec
  cases hspec with
  | pipe point actions => exact ⟨_, rfl, point, actions⟩

theorem Repointed.of_view (hq : q.spec = .view v) : ∃ v₀, r.spec = .view v₀ ∧
    v.aliasName = v₀.aliasName ∧ List.Forall₂ (Column.Repointed target) v₀.columns v.columns := by
  have hspec := h.spec
  rw [hq] at hspec
  generalize r.spec = spec at hspec
  cases hspec with
  | view aliasName columns => exact ⟨_, rfl, aliasName, columns⟩

theorem Repointed.of_rule (hq : q.spec = .rule x) : ∃ x₀, r.spec = .rule x₀ ∧
    x.predicate = x₀.predicate ∧ x.labels = x₀.labels ∧ List.Forall₂ target x₀.pipes x.pipes := by
  have hspec := h.spec
  rw [hq] at hspec
  generalize r.spec = spec at hspec
  cases hspec with
  | rule predicate labels pipes => exact ⟨_, rfl, predicate, labels, pipes⟩

end Kinds

theorem Repointed.references (h : Repointed target r q) :
    List.Forall₂ target r.references q.references := by
  obtain ⟨-, -, hspec⟩ := h
  unfold Resource.references
  revert hspec
  generalize r.spec = s, q.spec = t
  intro hspec
  cases hspec with
  | @pipe p q _ actions =>
    simp only [Spec.references, Pipe.references]
    revert actions
    generalize p.actions = as, q.actions = bs
    intro actions
    induction actions with
    | nil => simp
    | cons hab _ ih =>
      cases hab with
      | stay ha => simpa [ha] using ih
      | move ha hk ht hb => simpa [ha, hk, hb, Except.toOption] using ⟨ht, ih⟩
  | view _ columns =>
    simp only [Spec.references, View.references, List.forall₂_map_left_iff,
      List.forall₂_map_right_iff]
    exact columns.imp fun _ _ hcd => hcd.2
  | rule _ _ pipes => exact pipes

theorem Repointed.imp {other : Key → Key → Prop} (h : Repointed target r q)
    (himp : ∀ k ∈ r.references, ∀ t, target k t → other k t) : Repointed other r q := by
  refine ⟨h.version, h.metadata, ?_⟩
  have hspec := h.spec
  unfold Resource.references at himp
  revert himp hspec
  generalize r.spec = s, q.spec = t
  intro himp hspec
  cases hspec with
  | pipe point actions =>
    refine .pipe point ?_
    have hall := (List.forall₂_and_left _ _).2 ⟨fun a ha => ha, actions⟩
    refine hall.imp fun a b hab => hab.2.imp fun k t hpipe hk ht => ?_
    exact himp k (Pipe.mem_references.2 ⟨a, hab.1, hpipe, hk⟩) t ht
  | view aliasName columns =>
    refine .view aliasName ?_
    have hall := (List.forall₂_and_left _ _).2 ⟨fun c hc => hc, columns⟩
    refine hall.imp fun c d hcd => ⟨hcd.2.1, ?_⟩
    exact himp c.pipe (List.mem_map.2 ⟨c, hcd.1, rfl⟩) d.pipe hcd.2.2
  | rule predicate labels pipes =>
    refine .rule predicate labels ?_
    have hall := (List.forall₂_and_left _ _).2 ⟨fun k hk => hk, pipes⟩
    exact hall.imp fun k t hkt => himp k hkt.1 t hkt.2

/-- The keys that a resource was pointed at are written in it. -/
theorem Repointed.written (h : Repointed target r q) :
    Repointed (fun k t => t = k ∧ ∃ j, target j k) q q := by
  refine ⟨rfl, rfl, ?_⟩
  have hspec := h.spec
  revert hspec
  generalize r.spec = s, q.spec = t
  intro hspec
  cases hspec with
  | pipe _ actions =>
    refine .pipe rfl (List.forall₂_same.2 fun b hb => ?_)
    obtain ⟨a, -, hab⟩ := Result.exists_of_forall₂ actions.flip hb
    exact hab.written
  | view _ columns =>
    refine .view rfl (List.forall₂_same.2 fun d hd => ?_)
    obtain ⟨c, -, hcd⟩ := Result.exists_of_forall₂ columns.flip hd
    exact ⟨rfl, rfl, c.pipe, hcd.2⟩
  | rule _ _ pipes =>
    refine .rule rfl rfl (List.forall₂_same.2 fun t ht => ?_)
    obtain ⟨k, -, hkt⟩ := Result.exists_of_forall₂ pipes.flip ht
    exact ⟨rfl, k, hkt⟩

theorem qualify_of_repointed {resolve : Key → Result Key}
    (h : Repointed (fun k t => resolve k = .ok t) r q) : r.qualify resolve = .ok q := by
  obtain ⟨version, metadata, spec⟩ := r
  obtain ⟨_, _, spec'⟩ := q
  obtain ⟨rfl, rfl, hspec⟩ := h
  have hqualify : spec.qualify resolve = .ok spec' := by
    cases hspec with
    | @pipe p q point actions =>
      obtain ⟨_, _⟩ := q
      cases point
      have hall := Result.mapM_eq_ok.2 (actions.imp fun _ _ => Action.qualify_of_repointed)
      simp [Spec.qualify, Pipe.qualify, hall]
    | @view v w aliasName columns =>
      obtain ⟨_, _⟩ := w
      cases aliasName
      have hcolumn : ∀ c d : Column, Column.Repointed (fun k t => resolve k = .ok t) c d →
          Column.mk c.aliasName <$> resolve c.pipe = .ok d := by
        rintro c ⟨_, _⟩ ⟨rfl, hpipe⟩
        simp [hpipe]
      simp [Spec.qualify, View.qualify, Result.mapM_eq_ok.2 (columns.imp hcolumn)]
    | @rule x y predicate labels pipes =>
      obtain ⟨_, _, _⟩ := y
      cases predicate
      cases labels
      simp [Spec.qualify, Rule.qualify, Result.mapM_eq_ok.2 pipes]
  simp [Resource.qualify, hqualify]

end Resource
end PagePipes
