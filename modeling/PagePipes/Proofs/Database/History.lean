import PagePipes.Proofs.Database.Schema
import PagePipes.Proofs.Sql.Names

set_option autoImplicit false

/-!
# Histories of a database

A table stays when its view is removed, so what it was made of may no longer be stored. The texts
that were stored at some time are remembered here. Pipes and views are told apart by the digests of
their texts, so they are told apart as long as no two remembered texts have one digest.
-/
namespace PagePipes

/-- The identifiers that a change draws are numbers of 128 bits. -/
def Change.DrawsProper : Change → Prop
  | .createResource u _ | .createView u _ | .trigger u _ => u.Proper
  | .putIndex us _ => ∀ u ∈ us, u.Proper
  | _ => True

namespace Database

variable {db next : Database} {u : Uuid} {k : Key} {cs : List Change} {c : Change}

/-- The texts that a database keeps as specs of pipes and of views. -/
def specs (db : Database) : List String := db.pipes.map (·.spec) ++ db.views.map (·.spec)

/-- The text was kept as a spec at some time. -/
def Held (cs : List Change) (s : String) : Prop :=
  ∃ before, before <+: cs ∧ s ∈ (ofChanges before).specs

/-- Two of the texts have one digest. -/
def Collides (held : String → Prop) : Prop :=
  ∃ s t, held s ∧ held t ∧ s ≠ t ∧ Checksum.Sha1.digestText s = Checksum.Sha1.digestText t

theorem eq_of_digestText {held : String → Prop} (h : ¬ Collides held) {s t : String} (hs : held s)
    (ht : held t) (hdigest : Checksum.Sha1.digestText s = Checksum.Sha1.digestText t) : s = t := by
  by_contra hne
  exact h ⟨s, t, hs, ht, hne, hdigest⟩

/-! ## Rows that are remembered -/

/-- The texts of a database are among the given ones, and its views have proper identifiers. -/
structure Remembered (held : String → Prop) (db : Database) : Prop where
  pipes : ∀ row ∈ db.pipes, held row.spec
  views : ∀ row ∈ db.views, held row.spec ∧ row.uuid.Proper

theorem Remembered.of_subset {held : String → Prop} (h : Remembered held next)
    (hpipes : db.pipes ⊆ next.pipes) (hviews : db.views ⊆ next.views) : Remembered held db :=
  ⟨fun row hrow => h.pipes row (hpipes hrow), fun row hrow => h.views row (hviews hrow)⟩

/-- A resource takes no row of a pipe or a view away, and a new view takes the drawn identifier. -/
theorem rows_of_createResource {r : Resource} (h : db.createResource u r = .ok (next, k)) :
    db.pipes ⊆ next.pipes ∧ db.views ⊆ next.views ∧
      ∀ row ∈ next.views, row ∈ db.views ∨ row.uuid = u := by
  obtain ⟨-, q, -, -, ⟨rfl, -⟩ | ⟨-, hcreated⟩⟩ := createResource_eq_ok h
  · exact ⟨fun _ h => h, fun _ h => h, fun _ h => .inl h⟩
  · cases hcreated with
    | @pipe p hspec =>
      obtain ⟨-, h⟩ | ⟨-, h⟩ := insertPipe_eq db q.key p <;> rw [h]
      · exact ⟨fun _ h => h, fun _ h => h, fun _ h => .inl h⟩
      · exact ⟨List.subset_append_left _ _, fun _ h => h, fun _ h => .inl h⟩
    | view hspec hv =>
      obtain ⟨-, -, -, -, points, c, tables, -, -, -, rfl⟩ := insertView_eq_ok hv
      refine ⟨fun _ h => h, List.subset_append_left _ _, fun row hrow => ?_⟩
      exact (List.mem_append.1 hrow).imp id fun hlast => by rw [List.mem_singleton.1 hlast]
    | rule hspec hstored hlinks => exact ⟨fun _ h => h, fun _ h => h, fun _ h => .inl h⟩

theorem rows_of_createAll {ix : Index} {fresh : Nat → Uuid} {n : Nat} {keys ids : List Key}
    (h : createAll ix fresh n db keys = .ok (next, ids)) :
    db.pipes ⊆ next.pipes ∧ db.views ⊆ next.views ∧
      ∀ row ∈ next.views, row ∈ db.views ∨ ∃ n, row.uuid = fresh n := by
  refine createAll_keeps (P := fun d => db.pipes ⊆ d.pipes ∧ db.views ⊆ d.views ∧
      ∀ row ∈ d.views, row ∈ db.views ∨ ∃ n, row.uuid = fresh n)
    ⟨fun _ h => h, fun _ h => h, fun _ h => .inl h⟩ (fun _ _ _ _ before after m _ hbefore h => ?_) h
  obtain ⟨hpipes, hviews, honly⟩ := hbefore
  obtain ⟨hpipes', hviews', hnew⟩ := rows_of_createResource h
  refine ⟨List.Subset.trans hpipes hpipes', List.Subset.trans hviews hviews', fun row hrow => ?_⟩
  obtain hrow | hu := hnew row hrow
  · exact honly row hrow
  · exact .inr ⟨m, hu⟩

theorem proper_after (hc : c.DrawsProper) (h : ∀ row ∈ db.views, row.uuid.Proper) :
    ∀ row ∈ (Change.after db c).views, row.uuid.Proper := by
  obtain ⟨-, hsame⟩ | hleads := Change.after_cases db c
  · rwa [hsame]
  · generalize Change.after db c = next at hleads
    intro row hrow
    cases hleads with
    | createResource hok =>
      obtain hrow | rfl := (rows_of_createResource hok).2.2 row hrow
      · exact h row hrow
      · exact hc
    | deleteResource hok =>
      obtain ⟨gone, -, hdeleted⟩ := deleteResource_eq_ok hok
      cases hdeleted with
      | pipe | rule => exact h row hrow
      | view => exact h row (List.mem_filter.1 hrow).1
    | @putIndex us rs ix next ids hix hok =>
      obtain ⟨q, -, -, hall⟩ := putIndex_eq_ok.1 hok
      obtain hrow | ⟨n, hu⟩ := (rows_of_createAll hall).2.2 row hrow
      · exact h row hrow
      · rw [hu, List.getD_eq_getElem?_getD]
        cases hn : us[n]? with
        | none => exact Nat.pow_pos (by decide)
        | some u => exact hc u (List.mem_of_getElem? hn)
    | setDisabled hok =>
      obtain ⟨-, rfl⟩ := setDisabled_eq_ok.1 hok
      exact h row hrow
    | createRule hok =>
      obtain ⟨conditions, links, rfl⟩ := createRule_frame hok
      exact h row hrow
    | deleteRule hok =>
      obtain ⟨conditions, links, rfl⟩ := deleteRule_frame hok
      exact h row hrow
    | createView hok =>
      obtain ⟨-, w, -, -, hok⟩ := createView_eq_ok hok
      obtain ⟨-, -, -, -, points, c, tables, -, -, -, rfl⟩ := insertView_eq_ok hok
      obtain hrow | hlast := List.mem_append.1 hrow
      · exact h row hrow
      · rw [List.mem_singleton.1 hlast]
        exact hc
    | trigger hok =>
      obtain ⟨plans, rfl⟩ := trigger_frame hok
      exact h row hrow
    | exchange hok =>
      obtain ⟨events, objects, plans, rfl⟩ := exchange_frame hok
      exact h row hrow

theorem remembered_ofChanges (hproper : ∀ c ∈ cs, c.DrawsProper) {before : List Change}
    (hbefore : before <+: cs) : Remembered (Held cs) (ofChanges before) := by
  have hviews : ∀ row ∈ (ofChanges before).views, row.uuid.Proper := by
    replace hproper : ∀ c ∈ before, c.DrawsProper := fun c hc => hproper c (hbefore.subset hc)
    clear hbefore
    induction before using List.reverseRecOn with
    | nil => simp [ofChanges, empty]
    | append_singleton before c ih =>
      rw [ofChanges_concat]
      exact proper_after (hproper c (by simp)) (ih fun d hd => hproper d (List.mem_append_left _ hd))
  constructor
  · exact fun row hrow => ⟨before, hbefore, List.mem_append_left _ (List.mem_map_of_mem hrow)⟩
  · intro row hrow
    exact ⟨⟨before, hbefore, List.mem_append_right _ (List.mem_map_of_mem hrow)⟩, hviews row hrow⟩

/-! ## Steps that are remembered -/

theorem keeps_createAll {held : String → Prop} {P : Database → Prop} {ix : Index} {fresh : Nat → Uuid}
    {n : Nat} {keys ids : List Key} (hread : ∀ k ∈ keys, ∀ r, ix.resources[k]? = some r → r.AsRead)
    (hs : db.Sound) (hdb : P db) (hnext : Remembered held next)
    (hstep : ∀ {db next : Database}, db.Sound → P db → Step db next → Remembered held next → P next)
    (h : createAll ix fresh n db keys = .ok (next, ids)) : P next := by
  induction keys generalizing db n ids with
  | nil =>
    cases h
    exact hdb
  | cons k keys ih =>
    obtain ⟨hk, hkeys⟩ := List.forall_mem_cons.1 hread
    cases hr : ix.resources[k]? with
    | none =>
      rw [createAll_absent hr] at h
      exact ih hkeys hs hdb h
    | some r =>
      obtain ⟨middle, id, more, hmiddle, hmore, -⟩ := createAll_eq_ok hr h
      have hfirst : Step db middle := .createResource (hk r hr) hmiddle
      -- what the rest of the index adds takes nothing away, so this step is remembered too
      obtain ⟨hpipes, hviews, -⟩ := rows_of_createAll hmore
      exact ih hkeys (hfirst.sound hs) (hstep hs hdb hfirst (hnext.of_subset hpipes hviews)) hmore

/-- What every step keeps that leads to a database of remembered rows, holds after all changes. -/
theorem ofChanges_keeps_remembered {P : Database → Prop} (hread : ∀ c ∈ cs, c.AsRead)
    (hproper : ∀ c ∈ cs, c.DrawsProper) (hempty : P .empty)
    (hstep : ∀ {db next : Database}, db.Sound → P db → Step db next → Remembered (Held cs) next →
      P next) : P (ofChanges cs) := by
  suffices hall : ∀ before, before <+: cs → P (ofChanges before) from hall cs (List.prefix_rfl)
  intro before hbefore
  induction before using List.reverseRecOn with
  | nil => exact hempty
  | append_singleton before c ih =>
    have hearlier := (List.prefix_append before [c]).trans hbefore
    have hs := sound_ofChanges fun d hd => hread d (hearlier.subset hd)
    have hnext := remembered_ofChanges hproper hbefore
    rw [ofChanges_concat] at hnext ⊢
    obtain hsame | hone | ⟨us, rs, ix, keys, ids, -, hkeys, hok⟩ :=
      @after_cases_of_asRead (ofChanges before) c (hread c (hbefore.subset (by simp)))
    · rw [hsame]
      exact ih hearlier
    · exact hstep hs (ih hearlier) hone hnext
    · exact keeps_createAll hkeys hs (ih hearlier) hnext hstep hok

end Database
end PagePipes
