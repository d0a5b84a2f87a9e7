import PagePipes.Proofs.Database.Sound

set_option autoImplicit false

/-!
# Stored indexes

A qualified index that is stored into an empty database comes to stand there as it is: its resources
refer to one another by their keys, so qualifying them once more changes nothing. The pipes of the
database are those of the index, and its links those that the rules of the index ask for.
-/
namespace PagePipes

/-! ## Resources that are qualified -/

/-- The action already says the key that it names. -/
theorem Action.setKey_of_namesPipe {a : Action} {k : Key} (h : Database.namesPipe k a = true) :
    a.setKey k = a := by
  have hset : ∀ (name value : String), a.string? name = some value → a.setString name value = a := by
    intro name value hvalue
    have hget : a.arguments[name]? = some (.str value) := by
      unfold string? get? at hvalue
      split at hvalue
      · next s hs => rw [hs, Option.some.inj hvalue]
      · cases hvalue
    obtain ⟨arguments⟩ := a
    rw [setString, set, Action.mk.injEq]
    apply Std.ExtTreeMap.ext_getElem?
    intro other
    rw [Std.ExtTreeMap.getElem?_insert]
    split
    · next heq => rw [← Std.LawfulEqCmp.eq_of_compare heq, hget]
    · rfl
  simp only [Database.namesPipe, Bool.and_eq_true, beq_iff_eq] at h
  obtain ⟨⟨-, hname⟩, hdigest⟩ := h
  rw [setKey, hset _ _ hname]
  split
  · next d hd => exact hset _ _ (hdigest.trans hd)
  · rfl

/-- Every reference of the resource has a digest, and those of a pipe are written to the letter. -/
def Resource.Pointed (r : Resource) : Prop :=
  (∀ k ∈ r.references, k.isQualified = true) ∧ ∀ p, r.spec = .pipe p → p.Pointed

namespace Resource

variable {target : Key → Key → Prop} {r q : Resource}

theorem Repointed.pointed (h : Repointed target r q) (hq : ∀ k t, target k t → t.isQualified = true) :
    q.Pointed := by
  constructor
  · intro t ht
    obtain ⟨k, -, hkt⟩ := Result.exists_of_forall₂ h.references.flip ht
    exact hq k t hkt
  · intro p hp
    obtain ⟨p₀, -, -, hactions⟩ := h.of_pipe hp
    exact Pipe.pointed_of_repointed hq hactions

theorem forall₂_eq {α : Type} {moves : α → α → Prop} {xs ys : List α} (h : List.Forall₂ moves xs ys)
    (hmoves : ∀ x ∈ xs, ∀ y, moves x y → y = x) : ys = xs := by
  induction h with
  | nil => rfl
  | @cons x y xs ys hxy _ ih =>
    obtain ⟨hx, hxs⟩ := List.forall_mem_cons.1 hmoves
    rw [hx _ hxy, ih hxs]

/-- Where every key goes to itself, a resource that is pointed stays as it is. -/
theorem Repointed.eq_of_pointed (h : Repointed target r q) (hr : r.Pointed)
    (htarget : ∀ k t, target k t → k.isQualified = true → t = k) : q = r := by
  obtain ⟨version, metadata, spec⟩ := r
  obtain ⟨version', metadata', spec'⟩ := q
  obtain ⟨hversion, hmetadata, hspec⟩ := h
  dsimp only at hversion hmetadata hspec
  obtain ⟨hrefs, hpointed⟩ := hr
  dsimp only [references] at hrefs hpointed
  rw [hversion, hmetadata, Resource.mk.injEq]
  refine ⟨rfl, rfl, ?_⟩
  cases hspec with
  | @pipe p q hpoint hactions =>
    have hsame : q.actions = p.actions := forall₂_eq hactions fun a ha b hab => by
      cases hab with
      | stay => rfl
      | @move k t hpipe hk ht =>
        obtain ⟨j, hj, hqj, hnames⟩ := hpointed p rfl a ha hpipe
        cases hk.symm.trans hj
        rw [htarget k t ht hqj, Action.setKey_of_namesPipe hnames]
    cases p
    cases q
    simp_all
  | @view v w haliasName hcolumns =>
    have hsame : w.columns = v.columns := forall₂_eq hcolumns fun c hc d hcd => by
      obtain ⟨hname, hpipe⟩ := hcd
      cases c
      cases d
      rw [Column.mk.injEq]
      exact ⟨hname, htarget _ _ hpipe (hrefs _ (List.mem_map_of_mem hc))⟩
    cases v
    cases w
    simp_all
  | @rule x y hpredicate hlabels hpipes =>
    have hsame : y.pipes = x.pipes :=
      forall₂_eq hpipes fun k hk t ht => htarget k t ht (hrefs k hk)
    cases x
    cases y
    simp_all

end Resource

namespace Index

variable {ix out : Index} {k t ref : Key} {before : List Key}

theorem Coherent.exists_of_rules (hc : Coherent ix) {x : Rule} (hx : ix.rules[k]? = some x) :
    ∃ r, ix.resources[k]? = some r ∧ r.spec = .rule x := by
  rw [hc.rules_eq] at hx
  obtain ⟨r, hr, hx⟩ := Option.bind_eq_some_iff.1 hx
  refine ⟨r, hr, ?_⟩
  unfold Resource.rule? at hx
  split at hx <;> simp_all

theorem mem_pipes_of_means (hc : Coherent ix) (h : ix.qualified = .ok out)
    (hm : Means ix ix.newKey before ref t) : t ∈ out.pipes := by
  obtain ⟨⟨k, -, hk, rfl⟩, -⟩ := hm
  obtain ⟨r, hr, hkind⟩ := hc.mem_pipes.1 hk
  obtain ⟨q, hq, hrq⟩ := repointed_of_qualified hc h hr
  exact (hc.qualified h).mem_pipes.2 ⟨q, hq, hrq.kind_eq.trans hkind⟩

/-- In a qualified index every resource refers to pipes of the index by their keys. -/
theorem pointed_of_qualified (hc : Coherent ix) (h : ix.qualified = .ok out) {q : Resource}
    (hq : out.resources[t]? = some q) : q.Pointed ∧ ∀ ref ∈ q.references, ref ∈ out.pipes := by
  obtain ⟨k, hk, rfl⟩ := exists_newKey_of_qualified hc h (Lookup.mem hq)
  obtain ⟨r, hr⟩ := Lookup.exists_of_mem hk
  obtain ⟨q', hq', hrq⟩ := repointed_of_qualified hc h hr
  cases hq.symm.trans hq'
  have hout := hc.qualified h
  refine ⟨hrq.pointed fun ref t hm => hout.isQualified (hout.mem_resources_of_pipes
    (mem_pipes_of_means hc h hm)), fun t ht => ?_⟩
  obtain ⟨ref, -, hm⟩ := Result.exists_of_forall₂ hrq.references.flip ht
  exact mem_pipes_of_means hc h hm

end Index

/-! ## Storing them -/

namespace Database

variable {db next : Database} {ix : Index} {done : List Key} {k id : Key} {u : Uuid} {r : Resource}

/-- A resource that names all its references by their keys is qualified to itself. -/
theorem qualifyResource_eq_self {q : Resource} (hpointed : r.Pointed)
    (hq : db.qualifyResource r = .ok q) : q = r :=
  (qualifyResource_eq_ok hq).eq_of_pointed hpointed fun _ _ ht => ht.exact

theorem Created.rows (h : Created db u r next) (hfresh : ¬ db.Stores r.key) :
    (∀ row, row ∈ next.pipes ↔ row ∈ db.pipes ∨
      ∃ p, r.pipe? = some p ∧ row = ⟨r.key, p.toJson.compact, false⟩) ∧
    (∀ l : Link, l ∈ next.links ↔ l ∈ db.links ∨ ∃ x, r.rule? = some x ∧
      l.condition = x.predicate.condition ∧ l.owner = some r.key ∧ l.pipe ∈ x.pipes) ∧
    (∀ row ∈ next.resources, row ∈ db.resources ∨ row.key = r.key) ∧ next.plans = db.plans := by
  have hkey : ∀ subject, (r.row subject).key = r.key := fun _ => rfl
  cases h with
  | @pipe p hr =>
    have hpipe : r.pipe? = some p := by rw [Resource.pipe?, hr]
    have hrule : r.rule? = none := by rw [Resource.rule?, hr]
    obtain ⟨hstored, -⟩ | ⟨-, heq⟩ := insertPipe_eq db r.key p
    · exact absurd hstored hfresh
    · rw [heq]
      refine ⟨fun row => ?_, fun l => ?_, fun row hrow => ?_, rfl⟩
      · simp [hpipe]
      · simp [hrule]
      · exact (List.mem_append.1 hrow).imp id fun h => by rw [List.mem_singleton.1 h, hkey]
  | @view v viewed stored hr hv =>
    have hpipe : r.pipe? = none := by rw [Resource.pipe?, hr]
    have hrule : r.rule? = none := by rw [Resource.rule?, hr]
    obtain ⟨views, viewPipes, objects, rfl⟩ := insertView_frame hv
    refine ⟨fun row => ?_, fun l => ?_, fun row hrow => ?_, rfl⟩
    · simp [hpipe]
    · simp [hrule]
    · exact (List.mem_append.1 hrow).imp id fun h => by rw [List.mem_singleton.1 h, hkey]
  | @rule x conditions links hr hstored hlinks =>
    have hpipe : r.pipe? = none := by rw [Resource.pipe?, hr]
    have hrule : r.rule? = some x := by rw [Resource.rule?, hr]
    refine ⟨fun row => ?_, fun l => ?_, fun row hrow => ?_, rfl⟩
    · simp [hpipe]
    · simp [hrule, hlinks]
    · exact (List.mem_append.1 hrow).imp id fun h => by rw [List.mem_singleton.1 h, hkey]

/-- A database that the resources of some keys of an index were stored into, and nothing else. -/
structure Mirrors (ix : Index) (done : List Key) (db : Database) : Prop where
  pipes : ∀ row, row ∈ db.pipes ↔ row.key ∈ done ∧
    ∃ p, ix.pipes[row.key]? = some p ∧ row = ⟨row.key, p.toJson.compact, false⟩
  links : ∀ l : Link, l ∈ db.links ↔ ∃ k ∈ done, ∃ x, ix.rules[k]? = some x ∧
    l.condition = x.predicate.condition ∧ l.owner = some k ∧ l.pipe ∈ x.pipes
  keys : ∀ row ∈ db.resources, row.key ∈ done
  plans : db.plans = []

namespace Mirrors

theorem empty : Mirrors ix [] .empty where
  pipes := by simp [Database.empty]
  links := by simp [Database.empty]
  keys := by simp [Database.empty]
  plans := rfl

theorem createResource (hc : ix.Coherent) (hm : Mirrors ix done db) (hk : k ∉ done)
    (hr : ix.resources[k]? = some r) (hpointed : r.Pointed)
    (h : db.createResource u r = .ok (next, id)) : Mirrors ix (done ++ [k]) next := by
  obtain ⟨-, q, hq, hid, hcase⟩ := createResource_eq_ok h
  obtain rfl := qualifyResource_eq_self hpointed hq
  obtain rfl : q.key = k := hc.key_eq hr
  have hcreated : Created db u q next := by
    obtain ⟨-, row, hrow, hkey, -⟩ | ⟨-, hcreated⟩ := hcase
    · exact absurd (hid ▸ hkey ▸ hm.keys row hrow) hk
    · exact hcreated
  have hfresh : ¬ db.Stores q.key := by
    rintro ⟨row, hrow, hkey⟩
    exact hk (hkey ▸ ((hm.pipes row).1 hrow).1)
  obtain ⟨hpipes, hlinks, hresources, hplans⟩ := hcreated.rows hfresh
  have hpipe : ix.pipes[q.key]? = q.pipe? := by rw [hc.pipes_eq, hr, Option.bind_some]
  have hrule : ix.rules[q.key]? = q.rule? := by rw [hc.rules_eq, hr, Option.bind_some]
  refine ⟨fun row => ?_, fun l => ?_, fun row hrow => ?_, hplans.trans hm.plans⟩
  · rw [hpipes, hm.pipes, List.mem_append, List.mem_singleton, or_and_right]
    refine or_congr_right ⟨?_, ?_⟩
    · rintro ⟨p, hp, rfl⟩
      exact ⟨rfl, p, hpipe.trans hp, rfl⟩
    · rintro ⟨hkey, p, hp, hrow⟩
      rw [hkey] at hp hrow
      exact ⟨p, hpipe.symm.trans hp, hrow⟩
  · rw [hlinks, hm.links]
    simp only [List.mem_append, List.mem_singleton, or_and_right, exists_or, exists_eq_left, hrule]
  · exact List.mem_append.2 ((hresources row hrow).imp (hm.keys row) List.mem_singleton.2)

theorem createAll (hc : ix.Coherent) {fresh : Nat → Uuid} {n : Nat} {keys ids : List Key}
    (hpointed : ∀ (k : Key) (r : Resource), ix.resources[k]? = some r → r.Pointed)
    (hkeys : ∀ k ∈ keys, k ∈ ix.resources) (hm : Mirrors ix done db)
    (hnodup : (done ++ keys).Nodup) (h : createAll ix fresh n db keys = .ok (next, ids)) :
    Mirrors ix (done ++ keys) next := by
  induction keys generalizing done db n ids with
  | nil =>
    cases h
    rwa [List.append_nil]
  | cons k keys ih =>
    obtain ⟨hk, hkeys⟩ := List.forall_mem_cons.1 hkeys
    obtain ⟨r, hr⟩ := Lookup.exists_of_mem hk
    obtain ⟨middle, id, more, hmiddle, hmore, -⟩ := createAll_eq_ok hr h
    rw [← List.singleton_append, ← List.append_assoc] at hnodup ⊢
    have hnew : k ∉ done := fun hmem =>
      (List.nodup_append.1 (List.nodup_append.1 hnodup).1).2.2 k hmem k (by simp) rfl
    exact ih hkeys (hm.createResource hc hnew hr (hpointed k r hr) hmiddle) hnodup hmore

theorem putIndex {out : Index} {fresh : Nat → Uuid} {ids : List Key} (hc : ix.Coherent)
    (hout : ix.qualified = .ok out) (h : Database.empty.putIndex fresh ix = .ok (next, ids)) :
    Mirrors out out.traversal.emitted next ∧ ∀ k ∈ out.resources, k ∈ out.traversal.emitted := by
  obtain ⟨out', hout', hcycle, hall⟩ := putIndex_eq_ok.1 h
  cases hout.symm.trans hout'
  have hpointed : ∀ (k : Key) (r : Resource), out.resources[k]? = some r → r.Pointed :=
    fun k r hr => (Index.pointed_of_qualified hc hout hr).1
  refine ⟨createAll (hc.qualified hout) hpointed (fun k => Index.mem_resources_of_emitted) empty
    Graph.order_nodup hall, fun k => (Index.mem_emitted_of_no_cycle hcycle).2⟩

end Mirrors

end Database
end PagePipes
