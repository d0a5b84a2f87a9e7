import PagePipes.Proofs.Database.StoredPipes
import PagePipes.Proofs.Index.BareNames

set_option autoImplicit false

/-!
# Resolving references two ways

A database resolves a reference among all stored pipes. When a resource is stored, its references are
resolved by an index of those pipes that have their names. Both look at the same pipes and complain
alike, so they agree on every reference: on its key, on whether it is missing, and on the number of the
pipes that it may mean.
-/
namespace PagePipes

variable {f g : Key → Result Key}

/-! ## Qualification by resolvers that agree -/

theorem Pipe.qualify_congr {p : Pipe} (h : ∀ k ∈ p.references, f k = g k) :
    p.qualify f = p.qualify g := by
  have hactions : ∀ a ∈ p.actions, qualifyAction f a = qualifyAction g a := fun a ha => by
    unfold qualifyAction
    split
    · next hpipe =>
      cases hk : a.reference with
      | error e => rfl
      | ok k =>
        have hmem : k ∈ p.references :=
          List.mem_filterMap.2 ⟨a, List.mem_filter.2 ⟨ha, hpipe⟩, by rw [hk]; rfl⟩
        simp only [Result.ok_bind, h k hmem]
    · rfl
  rw [qualify, Result.mapM_congr hactions, ← qualify]

theorem View.qualify_congr {v : View} (h : ∀ k ∈ v.references, f k = g k) :
    v.qualify f = v.qualify g := by
  rw [qualify, qualify, Result.mapM_congr fun c hc => ?_]
  rw [h c.pipe (List.mem_map_of_mem hc)]

theorem Rule.qualify_congr {r : Rule} (h : ∀ k ∈ r.references, f k = g k) :
    r.qualify f = r.qualify g := by
  have hpipes : r.pipes.mapM f = r.pipes.mapM g := Result.mapM_congr h
  rw [qualify, hpipes, ← qualify]

theorem Spec.qualify_congr {s : Spec} (h : ∀ k ∈ s.references, f k = g k) :
    s.qualify f = s.qualify g := by
  cases s with
  | pipe p => rw [qualify, Pipe.qualify_congr h, ← qualify]
  | view v => rw [qualify, View.qualify_congr h, ← qualify]
  | rule x => rw [qualify, Rule.qualify_congr h, ← qualify]

theorem Resource.qualify_congr {r : Resource} (h : ∀ k ∈ r.references, f k = g k) :
    r.qualify f = r.qualify g := by
  rw [qualify, Spec.qualify_congr h, ← qualify]

namespace Database

variable {db : Database} {ix : Index} {k : Key} {references : List Key}

theorem resolve_eq_choose (hk : k.isQualified = false) :
    db.resolve k = choose k ((db.pipes.filter (·.key.name == k.name)).map (·.key)) := by
  rw [resolve, if_neg (by simp [hk])]
  generalize db.pipes.filter (·.key.name == k.name) = rows
  rcases rows with _ | ⟨a, _ | ⟨b, rest⟩⟩
  · rfl
  · rfl
  · simp [choose]

/-- An index of the stored pipes that have the names of references resolves them as the database. -/
theorem resolve_eq_of_indexed (hkeys : (db.pipes.map (·.key)).Nodup)
    (hix : Indexed (db.rowsNamed references) ix) (hk : k ∈ references) : ix.resolve k = db.resolve k := by
  cases hq : k.isQualified with
  | true =>
    rw [Index.resolve, Database.resolve, if_pos hq, if_pos hq]
    simp only [hix.mem_pipes_iff hk rfl, ← hasPipe_iff]
  | false =>
    rw [Index.resolve_eq_choose hq, resolve_eq_choose hq]
    refine choose_perm ((List.perm_ext_iff_of_nodup Index.pipesNamed_nodup ?_).2 fun t => ?_)
    · exact hkeys.sublist (List.filter_sublist.map _)
    · rw [hix.mem_pipesNamed_iff hk]
      simp only [Stores, List.mem_map, List.mem_filter, beq_iff_eq]
      grind

/-- After any changes, when the stored pipes that have the names of a resource's references match their
digests, they can be indexed, and the index resolves each of the references to the same key as the
database does, or fails with the same error. So the resource is qualified as by the whole database. -/
theorem resolvers_agree (cs : List Change) (hread : ∀ c ∈ cs, c.AsRead) (r : Resource)
    (hmatches : ∀ row ∈ (ofChanges cs).rowsNamed r.references, row.Matches) :
    ∃ ix, (ofChanges cs).dependencyIndex r.references = .ok ix ∧
      (∀ k ∈ r.references, ix.resolve k = (ofChanges cs).resolve k) ∧
      r.qualify ix.resolve = r.qualify (ofChanges cs).resolve := by
  have hkeys := (sound_ofChanges hread).pipes.keys
  obtain ⟨ix, hix⟩ := (dependencyIndex_succeeds_iff (madePipes_ofChanges hread) hkeys).2 hmatches
  have hagree : ∀ k ∈ r.references, ix.resolve k = (ofChanges cs).resolve k := fun k hk =>
    resolve_eq_of_indexed hkeys (indexed_of_dependencyIndex hix) hk
  exact ⟨ix, hix, hagree, Resource.qualify_congr hagree⟩

/-- Two pipes are titles, one of them for pages that may have none. -/
def titleOrNone : List Change :=
  [.createResource ⟨1⟩ (.ofSpec "title" (.pipe ⟨[.ofKind .document], {}⟩)),
    .createResource ⟨2⟩ (.ofSpec "title" (.pipe ⟨[.ofKind .document], { nullable := true }⟩)),
    .createResource ⟨3⟩ (.ofSpec "page" (.pipe ⟨[.ofKind .document], {}⟩))]

/-- The key of the first title, a name of one pipe, a name of two and a name of none. -/
def titlesAndOthers : List Key :=
  [(Resource.ofSpec "title" (.pipe ⟨[.ofKind .document], {}⟩)).key, .bare "page", .bare "title",
    .bare "author"]

theorem titles_and_others_resolved :
    let r : Resource := .ofSpec "titles" (.rule ⟨⟨none, none, true⟩, [], titlesAndOthers⟩)
    (∀ c ∈ titleOrNone, c.AsRead) ∧ (∀ row ∈ (ofChanges titleOrNone).rowsNamed r.references, row.Matches) ∧
    ∃ ix, (ofChanges titleOrNone).dependencyIndex r.references = .ok ix ∧
      titlesAndOthers.map ix.resolve = titlesAndOthers.map (ofChanges titleOrNone).resolve ∧
      titlesAndOthers.map ix.resolve =
        [.ok (Resource.ofSpec "title" (.pipe ⟨[.ofKind .document], {}⟩)).key,
          .ok (Resource.ofSpec "page" (.pipe ⟨[.ofKind .document], {}⟩)).key,
          .error (.ambiguous "title" 2), .error (Index.pipeNotFound (.bare "author"))] ∧
      r.qualify ix.resolve = r.qualify (ofChanges titleOrNone).resolve := by
  intro r
  have hread : ∀ c ∈ titleOrNone, c.AsRead := by
    simp only [titleOrNone, List.mem_cons, List.not_mem_nil, or_false]
    rintro c (rfl | rfl | rfl) <;> exact List.forall_mem_singleton.2 (Action.readable_ofKind _)
  have hrun : (∀ row ∈ (ofChanges titleOrNone).pipes,
        row.pipe.toOption.any (fun p => decide (row.key.digest = some p.digest)) = true) ∧
      titlesAndOthers.map (ofChanges titleOrNone).resolve =
        [.ok (Resource.ofSpec "title" (.pipe ⟨[.ofKind .document], {}⟩)).key,
          .ok (Resource.ofSpec "page" (.pipe ⟨[.ofKind .document], {}⟩)).key,
          .error (.ambiguous "title" 2), .error (Index.pipeNotFound (.bare "author"))] := by
    decide +kernel
  obtain ⟨hdigests, hresolve⟩ := hrun
  have hmatches : ∀ row ∈ (ofChanges titleOrNone).rowsNamed r.references, row.Matches := fun row hrow => by
    obtain ⟨p, hp, hdigest⟩ := Result.exists_ok_of_any (hdigests row (mem_rowsNamed.1 hrow).1)
    exact ⟨p, hp, of_decide_eq_true hdigest⟩
  obtain ⟨ix, hix, hagree, hqualify⟩ := resolvers_agree titleOrNone hread r hmatches
  have hsame : titlesAndOthers.map ix.resolve = titlesAndOthers.map (ofChanges titleOrNone).resolve :=
    List.map_congr_left hagree
  exact ⟨hread, hmatches, ix, hix, hsame, hsame.trans hresolve, hqualify⟩

end Database
end PagePipes
