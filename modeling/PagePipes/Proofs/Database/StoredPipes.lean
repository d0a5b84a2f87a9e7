import PagePipes.Proofs.Database.Qualification
import PagePipes.Proofs.Database.Rows

set_option autoImplicit false

/-!
# Stored pipes and their digests

A stored pipe has the text and the digest of a valid pipe. What its text is read as is valid again,
but its floats need not be those that were written; when they are not, the digest of the row is no
longer that of its pipe. References to a name can be qualified just as long as every stored pipe of
the name matches its digest, and one that does not stops every operation that refers to its name.
-/
namespace PagePipes

/-- The pipe that is read out of the row has the digest of the row. -/
def PipeRow.Matches (row : PipeRow) : Prop := ∃ p, row.pipe = .ok p ∧ row.key.digest = some p.digest

/-- Two rows are read as different pipes of one digest. -/
def PipeRow.Collide (a b : PipeRow) : Prop :=
  ∃ p q, a.pipe = .ok p ∧ b.pipe = .ok q ∧ p ≠ q ∧ p.digest = q.digest

/-- The complaint about a row that does not match its digest. -/
def PipeRow.mismatch (row : PipeRow) : Error :=
  .internal ("stored pipe " ++ row.key.text ++ " does not match its spec digest")

namespace PipeRow.MadeFor

variable {row : PipeRow} {q : Pipe}

theorem matches_iff (h : row.MadeFor q) : row.Matches ↔ q.reread.digest = q.digest := by
  simp only [Matches, h.pipe_eq, h.digest, Except.ok.injEq, exists_eq_left', Option.some.injEq]
  exact eq_comm

theorem validate_ofSpec (h : row.MadeFor q) :
    (Resource.ofSpec row.key.name (.pipe q.reread)).validate = .ok () :=
  Resource.validate_eq_ok.2 ⟨rfl, h.named, Pipe.validate_reread h.valid⟩

theorem matches_iff_indexes (h : row.MadeFor q) : row.Matches ↔ ∃ r, row.Indexes r := by
  constructor
  · rintro ⟨p, hp, hdigest⟩
    cases h.pipe_eq.symm.trans hp
    refine ⟨_, q.reread, h.pipe_eq, rfl, h.validate_ofSpec, ?_⟩
    obtain ⟨⟨name, digest⟩, spec, disabled⟩ := row
    cases hdigest
    rfl
  · rintro ⟨r, p, hp, rfl, -, hkey⟩
    exact ⟨p, hp, congrArg Key.digest hkey.symm⟩

end PipeRow.MadeFor

namespace Database

variable {db : Database} {ix : Index} {row : PipeRow} {rows : List PipeRow} {e : Error}
  {references : List Key}

/-! ## Indexes of rows -/

theorem exists_other_of_add_error {r : Resource} (hvalid : r.validate = .ok ())
    (h : ix.add r = .error e) : ∃ s, ix.resources[r.key]? = some s ∧ s ≠ r := by
  have hfails : ∀ next, ix.add r ≠ .ok (next, r.key) := fun next hok => by rw [h] at hok; cases hok
  cases hget : ix.resources[r.key]? with
  | none => exact absurd (Index.add_eq_ok.2 ⟨hvalid, rfl, .inr ⟨hget, rfl⟩⟩) (hfails _)
  | some s =>
    refine ⟨s, rfl, ?_⟩
    rintro rfl
    exact absurd (Index.add_eq_ok.2 ⟨hvalid, rfl, .inl ⟨hget, rfl⟩⟩) (hfails _)

/-- A row that an index refuses does not have the digest of its pipe, or its pipe has the digest of
another one. -/
theorem indexPipe_error {q : Pipe} (hmade : row.MadeFor q) (hix : Indexed rows ix)
    (h : indexPipe ix row = .error e) :
    e = row.mismatch ∨ ∃ other ∈ rows, row.Collide other := by
  simp only [indexPipe, hmade.pipe_eq, Result.ok_bind] at h
  cases hadd : ix.add (.ofSpec row.key.name (.pipe q.reread)) with
  | ok added =>
    left
    simp only [hadd, Result.ok_bind] at h
    split at h
    · cases h
      rfl
    · cases h
  | error _ =>
    obtain ⟨s, hget, hne⟩ := exists_other_of_add_error hmade.validate_ofSpec hadd
    obtain ⟨other, hother, hkey⟩ := hix.only _ (Lookup.mem hget)
    obtain ⟨_, ⟨p, hp, rfl, -, hskey⟩, hs⟩ := hix.holds other hother
    rw [hkey, hget, Option.some.injEq] at hs
    subst hs
    rw [hkey] at hskey
    refine .inr ⟨other, hother, _, p, hmade.pipe_eq, hp, ?_, ?_⟩
    · rintro rfl
      exact hne rfl
    · exact (Option.some.inj (congrArg Key.digest hskey)).symm

/-- When rows cannot be indexed, the first one that is refused does not match. -/
theorem foldlM_indexPipe_error (hmade : ∀ row ∈ rows, ∃ q, row.MadeFor q)
    (hkeys : ∀ a ∈ rows, ∀ b ∈ rows, a.key = b.key → a = b)
    (h : rows.foldlM indexPipe .empty = .error e) :
    ∃ row ∈ rows, ¬ row.Matches ∧ (e = row.mismatch ∨ ∃ other ∈ rows, row.Collide other) := by
  induction rows using List.reverseRecOn with
  | nil => cases h
  | append_singleton rows row ih =>
    have hbefore : ∀ s ∈ rows, s ∈ rows ++ [row] := fun s => List.mem_append_left _
    cases hix : rows.foldlM indexPipe .empty with
    | error _ =>
      rw [List.foldlM_append, hix] at h
      cases h
      obtain ⟨s, hs, hmatches, hrefused⟩ := ih (fun s hs => hmade s (hbefore s hs))
        (fun a ha b hb => hkeys a (hbefore a ha) b (hbefore b hb)) hix
      refine ⟨s, hbefore s hs, hmatches, hrefused.imp_right ?_⟩
      rintro ⟨other, hother, hcollide⟩
      exact ⟨other, hbefore other hother, hcollide⟩
    | ok ix =>
      obtain ⟨q, hq⟩ := hmade row (by simp)
      have hindexed := indexed_of_foldlM hix
      refine ⟨row, by simp, fun hmatches => ?_, ?_⟩
      · -- a row that matches would be indexed after rows that all are
        obtain ⟨next, hnext⟩ := foldlM_indexPipe_succeeds (List.forall_mem_append.2 ⟨fun s hs =>
            (hindexed.holds s hs).imp fun _ => And.left,
          List.forall_mem_singleton.2 (hq.matches_iff_indexes.1 hmatches)⟩) hkeys
        rw [h] at hnext
        cases hnext
      · simp only [List.foldlM_append, hix, Result.ok_bind, List.foldlM_cons, List.foldlM_nil,
          bind_pure] at h
        refine (indexPipe_error hq hindexed h).imp_right ?_
        rintro ⟨other, hother, hcollide⟩
        exact ⟨other, hbefore other hother, hcollide⟩

theorem dependencyIndex_succeeds_iff (hmade : MadePipes db) (hkeys : (db.pipes.map (·.key)).Nodup) :
    (∃ ix, db.dependencyIndex references = .ok ix) ↔
      ∀ row ∈ db.rowsNamed references, row.Matches := by
  have hmade' : ∀ row ∈ db.rowsNamed references, ∃ q, row.MadeFor q := fun row hrow =>
    hmade row (mem_rowsNamed.1 hrow).1
  rw [dependencyIndex_eq]
  constructor
  · rintro ⟨ix, hix⟩ row hrow
    obtain ⟨q, hq⟩ := hmade' row hrow
    exact hq.matches_iff_indexes.2 (((indexed_of_foldlM hix).holds row hrow).imp fun _ => And.left)
  · intro hmatches
    refine foldlM_indexPipe_succeeds (fun row hrow => ?_) fun a ha b hb hab =>
      List.inj_on_of_nodup_map hkeys (mem_rowsNamed.1 ha).1 (mem_rowsNamed.1 hb).1 hab
    obtain ⟨q, hq⟩ := hmade' row hrow
    exact hq.matches_iff_indexes.1 (hmatches row hrow)

theorem dependencyIndex_error (hmade : MadePipes db) (hkeys : (db.pipes.map (·.key)).Nodup)
    (h : db.dependencyIndex references = .error e) :
    ∃ row ∈ db.rowsNamed references, ¬ row.Matches ∧
      (e = row.mismatch ∨ ∃ other ∈ db.rowsNamed references, row.Collide other) := by
  rw [dependencyIndex_eq] at h
  exact foldlM_indexPipe_error (fun row hrow => hmade row (mem_rowsNamed.1 hrow).1) (fun a ha b hb hab =>
    List.inj_on_of_nodup_map hkeys (mem_rowsNamed.1 ha).1 (mem_rowsNamed.1 hb).1 hab) h

/-! ## Operations that refer to pipes -/

/-- The operations that refer to pipes by these keys all fail with the error. -/
structure Refuses (db : Database) (references : List Key) (e : Error) : Prop where
  createResource : ∀ u r, r.references = references → r.validate = .ok () →
    db.createResource u r = .error e
  createRule : ∀ x : Rule, x.normalized.references = references → x.normalized.validate = .ok () →
    db.createRule x = .error e
  deleteRule : ∀ x : Rule, x.normalized.references = references → db.deleteRule x = .error e
  createView : ∀ u v, v.references = references → v.validate = .ok () →
    db.createView u v = .error e

/-- Each of the operations indexes the stored pipes that it names before it does anything. -/
theorem refuses_of_dependencyIndex (h : db.dependencyIndex references = .error e) :
    db.Refuses references e where
  createResource u r hr hvalid := by
    subst hr
    rw [Database.createResource, hvalid, Result.ok_bind, qualifyResource, h]
    rfl
  createRule x hx hvalid := by
    subst hx
    simp only [Database.createRule, hvalid, Result.ok_bind, qualifyRule, h]
    rfl
  deleteRule x hx := by
    subst hx
    rw [Database.deleteRule, qualifyRule, h]
    rfl
  createView u v hv hvalid := by
    subst hv
    rw [Database.createView, hvalid, Result.ok_bind, qualifyView, h]
    rfl

/-- Every stored pipe is read as a valid one. It matches its digest just when reading leaves the
digest of the pipe that was stored as it was. Stored pipes can be indexed for references just when
every one of the names matches; and when one does not, whatever refers to its name is refused because
of it, unless two stored pipes have one digest. -/
theorem stored_pipes_indexed_iff_match (cs : List Change) (hread : ∀ c ∈ cs, c.AsRead) :
    (∀ row ∈ (ofChanges cs).pipes, ∃ q : Pipe, q.validate = .ok () ∧ row.spec = q.toJson.compact ∧
      row.key.digest = some q.digest ∧ row.pipe = .ok q.reread ∧ q.reread.validate = .ok () ∧
      (row.Matches ↔ q.reread.digest = q.digest)) ∧
    ∀ references : List Key,
      ((∃ ix, (ofChanges cs).dependencyIndex references = .ok ix) ↔
        ∀ row ∈ (ofChanges cs).rowsNamed references, row.Matches) ∧
      ∀ e, (ofChanges cs).dependencyIndex references = .error e →
        (ofChanges cs).Refuses references e ∧
        ∃ row ∈ (ofChanges cs).rowsNamed references, ¬ row.Matches ∧
          (e = row.mismatch ∨ ∃ other ∈ (ofChanges cs).rowsNamed references, row.Collide other) := by
  have hkeys := (sound_ofChanges hread).pipes.keys
  have hmade := madePipes_ofChanges hread
  refine ⟨fun row hrow => ?_, fun references => ⟨dependencyIndex_succeeds_iff hmade hkeys, fun e he =>
    ⟨refuses_of_dependencyIndex he, dependencyIndex_error hmade hkeys he⟩⟩⟩
  obtain ⟨q, hq⟩ := hmade row hrow
  exact ⟨q, hq.valid, hq.spec, hq.digest, hq.pipe_eq, Pipe.validate_reread hq.valid, hq.matches_iff⟩

/-- A pipe with a weight that is not read as it was written. -/
def weighed : List Change :=
  [.createResource ⟨1⟩ (.ofSpec "title" (.pipe ⟨[(Action.ofKind .document).set "weight"
    (.num (.float ⟨0x405723e19035ac7c⟩))], {}⟩))]

theorem weighed_title_refused :
    let rule : Rule := ⟨⟨none, none, true⟩, [], [.bare "title"]⟩
    (∀ c ∈ weighed, c.AsRead) ∧ ∃ row, (ofChanges weighed).pipes = [row] ∧ ¬ row.Matches ∧
      (ofChanges weighed).createRule rule = .error row.mismatch := by
  intro rule
  have hread : ∀ c ∈ weighed, c.AsRead := by
    refine List.forall_mem_singleton.2 (List.forall_mem_singleton.2 fun name v hv => ?_)
    rw [Action.get?_set] at hv
    split at hv
    · cases hv
      exact ⟨trivial, trivial, Nat.zero_le _⟩
    · exact Action.readable_ofKind _ name v hv
  have hrun : ((ofChanges weighed).pipes.map fun row =>
      (row.key.name, row.pipe.toOption.any fun p => decide (row.key.digest ≠ some p.digest))) =
        [("title", true)] := by
    decide +kernel
  obtain ⟨row, hpipes, hrow⟩ := List.map_eq_singleton_iff.1 hrun
  obtain ⟨hname, hdigest⟩ := Prod.mk.inj hrow
  obtain ⟨p, hp, hne⟩ := Result.exists_ok_of_any hdigest
  have hmatches : ¬ row.Matches := by
    rintro ⟨q, hq, hqdigest⟩
    cases hp.symm.trans hq
    exact of_decide_eq_true hne hqdigest
  obtain ⟨-, hindexed⟩ := stored_pipes_indexed_iff_match weighed hread
  obtain ⟨hiff, herror⟩ := hindexed [.bare "title"]
  have honly : ∀ s ∈ (ofChanges weighed).rowsNamed [.bare "title"], s = row := fun s hs => by
    simpa [hpipes] using (mem_rowsNamed.1 hs).1
  refine ⟨hread, row, hpipes, hmatches, ?_⟩
  cases hix : (ofChanges weighed).dependencyIndex [.bare "title"] with
  | ok ix =>
    refine absurd (hiff.1 ⟨ix, hix⟩ row (mem_rowsNamed.2 ⟨?_, .bare "title", by simp, hname.symm⟩)) hmatches
    simp [hpipes]
  | error e =>
    obtain ⟨hrefuses, s, hs, -, hcause⟩ := herror e hix
    cases honly s hs
    obtain rfl | ⟨other, hother, a, b, ha, hb, hab, -⟩ := hcause
    · exact hrefuses.createRule rule rfl (by decide)
    · cases honly other hother
      cases ha.symm.trans hb
      exact absurd rfl hab

end Database
end PagePipes
