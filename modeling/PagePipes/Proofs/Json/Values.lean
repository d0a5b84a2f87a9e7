import PagePipes.Json.Decode
import PagePipes.Proofs.Json.Reading
import PagePipes.Proofs.Result

set_option autoImplicit false

/-!
# Values of documents

The document of a value denotes the value when its objects are sorted. Writing and reading again
keeps what later readings need: sorted objects, small integers and the depth.
-/
namespace PagePipes.Json

variable {j : Json} {items : List Json} {fields : List (String × Json)}

/-! ## Parts of values -/

theorem rereadItems_eq_map : rereadItems items = items.map reread := by
  induction items with
  | nil => rfl
  | cons j items ih => rw [rereadItems, ih, List.map_cons]

theorem rereadFields_eq_map : rereadFields fields = fields.map fun f => (f.1, f.2.reread) := by
  induction fields with
  | nil => rfl
  | cons f fields ih => rw [rereadFields, ih, List.map_cons]

theorem readableItems_iff : ReadableItems items ↔ ∀ j ∈ items, j.Readable := by
  induction items with
  | nil => simp [ReadableItems]
  | cons j items ih => simp [ReadableItems, ih]

theorem readableFields_iff : ReadableFields fields ↔ ∀ f ∈ fields, f.2.Readable := by
  induction fields with
  | nil => simp [ReadableFields]
  | cons f fields ih => simp [ReadableFields, ih]

theorem sortedItems_iff : SortedItems items ↔ ∀ j ∈ items, j.Sorted := by
  induction items with
  | nil => simp [SortedItems]
  | cons j items ih => simp [SortedItems, ih]

theorem sortedFields_iff : SortedFields fields ↔ ∀ f ∈ fields, f.2.Sorted := by
  induction fields with
  | nil => simp [SortedFields]
  | cons f fields ih => simp [SortedFields, ih]

theorem depthItems_le {n : Nat} : depthItems items ≤ n ↔ ∀ j ∈ items, j.depth ≤ n := by
  induction items with
  | nil => simp [depthItems]
  | cons j items ih => simp [depthItems, ih]

theorem depthFields_le {n : Nat} : depthFields fields ≤ n ↔ ∀ f ∈ fields, f.2.depth ≤ n := by
  induction fields with
  | nil => simp [depthFields]
  | cons f fields ih => simp [depthFields, ih]

/-! ## Sorting fields -/

theorem mem_setField {key : String} {v : Json} {f : String × Json} (h : f ∈ setField key v fields) :
    f = (key, v) ∨ f ∈ fields := by
  induction fields with
  | nil => exact .inl (List.mem_singleton.1 h)
  | cons g fields ih =>
    rw [setField] at h
    split_ifs at h
    · exact List.mem_cons.1 h
    · exact (List.mem_cons.1 h).imp id (List.mem_cons_of_mem g)
    · obtain rfl | h := List.mem_cons.1 h
      · exact .inr (by simp)
      · exact (ih h).imp id (List.mem_cons_of_mem g)

theorem sorted_setField {key : String} {v : Json} (h : fields.Pairwise fun a b => a.1 < b.1) :
    (setField key v fields).Pairwise fun a b => a.1 < b.1 := by
  induction fields with
  | nil => exact List.pairwise_singleton _ _
  | cons g fields ih =>
    obtain ⟨hg, hfields⟩ := List.pairwise_cons.1 h
    rw [setField]
    split_ifs with hlt heq
    · refine List.pairwise_cons.2 ⟨fun f hf => ?_, h⟩
      obtain rfl | hf := List.mem_cons.1 hf
      · exact hlt
      · exact hlt.trans (hg f hf)
    · refine List.pairwise_cons.2 ⟨fun f hf => ?_, hfields⟩
      rw [heq]
      exact hg f hf
    · refine List.pairwise_cons.2 ⟨fun f hf => ?_, ih hfields⟩
      obtain rfl | hf := mem_setField hf
      · exact lt_of_le_of_ne (not_lt.1 hlt) (Ne.symm heq)
      · exact hg f hf

theorem sorted_sortFields : (sortFields fields).Pairwise fun a b => a.1 < b.1 := by
  unfold sortFields
  induction fields using List.reverseRecOn with
  | nil => exact List.Pairwise.nil
  | append_singleton fields f ih =>
    rw [List.foldl_append]
    exact sorted_setField ih

theorem perm_setField {key : String} {v : Json} (h : ∀ f ∈ fields, f.1 ≠ key) :
    (setField key v fields).Perm ((key, v) :: fields) := by
  induction fields with
  | nil => exact .refl _
  | cons g fields ih =>
    rw [setField, if_neg (Ne.symm (h g (by simp)))]
    split_ifs
    · exact .refl _
    · exact ((ih fun f hf => h f (List.mem_cons_of_mem g hf)).cons g).trans (.swap _ _ _)

theorem perm_sortFields (h : (fields.map (·.1)).Nodup) : (sortFields fields).Perm fields := by
  unfold sortFields
  induction fields using List.reverseRecOn with
  | nil => exact .refl _
  | append_singleton fields f ih =>
    rw [List.map_append, List.nodup_append] at h
    obtain ⟨hfields, -, hnew⟩ := h
    have hperm := ih hfields
    rw [List.foldl_append]
    refine (perm_setField fun g hg => ?_).trans
      ((hperm.cons f).trans (List.perm_append_singleton f fields).symm)
    exact hnew g.1 (List.mem_map_of_mem (hperm.mem_iff.1 hg)) f.1 (by simp)

theorem sortFields_eq_of_perm {sorted : List (String × Json)} (hperm : fields.Perm sorted)
    (hsorted : sorted.Pairwise fun a b => a.1 < b.1) : sortFields fields = sorted := by
  have hnodup : (fields.map (·.1)).Nodup := by
    rw [(hperm.map (·.1)).nodup_iff, List.nodup_iff_pairwise_ne, List.pairwise_map]
    exact hsorted.imp fun h => ne_of_lt h
  exact ((perm_sortFields hnodup).trans hperm).eq_of_pairwise
    (fun a b _ _ hab hba => absurd (hab.trans hba) (lt_irrefl _)) sorted_sortFields hsorted

/-! ## What a second reading needs -/

mutual

/-- A property of values that goes from the parts of a value to the value. -/
theorem induct {P : Json → Prop} (null : P .null) (bool : ∀ b, P (.bool b)) (num : ∀ n, P (.num n))
    (str : ∀ s, P (.str s)) (arr : ∀ items, (∀ j ∈ items, P j) → P (.arr items))
    (obj : ∀ fields, (∀ f ∈ fields, P f.2) → P (.obj fields)) (j : Json) : P j := by
  match j with
  | .null => exact null
  | .bool b => exact bool b
  | .num n => exact num n
  | .str s => exact str s
  | .arr items => exact arr items (inductItems null bool num str arr obj items)
  | .obj fields => exact obj fields (inductFields null bool num str arr obj fields)

theorem inductItems {P : Json → Prop} (null : P .null) (bool : ∀ b, P (.bool b))
    (num : ∀ n, P (.num n)) (str : ∀ s, P (.str s))
    (arr : ∀ items, (∀ j ∈ items, P j) → P (.arr items))
    (obj : ∀ fields, (∀ f ∈ fields, P f.2) → P (.obj fields)) (items : List Json) :
    ∀ j ∈ items, P j := by
  match items with
  | [] => simp
  | j :: items =>
    exact List.forall_mem_cons.2 ⟨induct null bool num str arr obj j,
      inductItems null bool num str arr obj items⟩

theorem inductFields {P : Json → Prop} (null : P .null) (bool : ∀ b, P (.bool b))
    (num : ∀ n, P (.num n)) (str : ∀ s, P (.str s))
    (arr : ∀ items, (∀ j ∈ items, P j) → P (.arr items))
    (obj : ∀ fields, (∀ f ∈ fields, P f.2) → P (.obj fields)) (fields : List (String × Json)) :
    ∀ f ∈ fields, P f.2 := by
  match fields with
  | [] => simp
  | (_, j) :: fields =>
    exact List.forall_mem_cons.2 ⟨induct null bool num str arr obj j,
      inductFields null bool num str arr obj fields⟩

end

theorem readable_reread (h : j.Readable) : j.reread.Readable := by
  induction j using induct with
  | null | bool b | str s => exact h
  | num n =>
    rw [reread]
    obtain heq | heq | ⟨v, heq, hv⟩ := n.reread_eq
    · rwa [heq]
    · rw [heq]
      trivial
    · rw [heq]
      exact hv
  | arr items ih =>
    rw [reread, Readable, rereadItems_eq_map, readableItems_iff, List.forall_mem_map]
    exact fun j hj => ih j hj (readableItems_iff.1 h j hj)
  | obj fields ih =>
    rw [reread, Readable, rereadFields_eq_map, readableFields_iff, List.forall_mem_map]
    exact fun f hf => ih f hf (readableFields_iff.1 h f hf)

theorem sorted_reread (h : j.Sorted) : j.reread.Sorted := by
  induction j using induct with
  | null | bool b | str s => exact h
  | num n =>
    rw [reread]
    obtain heq | heq | ⟨v, heq, -⟩ := n.reread_eq <;> rw [heq] <;> trivial
  | arr items ih =>
    rw [reread, Sorted, rereadItems_eq_map, sortedItems_iff, List.forall_mem_map]
    exact fun j hj => ih j hj (sortedItems_iff.1 h j hj)
  | obj fields ih =>
    obtain ⟨hkeys, hfields⟩ := h
    rw [reread, Sorted, rereadFields_eq_map, sortedFields_iff, List.forall_mem_map]
    refine ⟨List.pairwise_map.2 hkeys, fun f hf => ih f hf (sortedFields_iff.1 hfields f hf)⟩

theorem depth_reread : j.reread.depth = j.depth := by
  induction j using induct with
  | null | bool b | str s => rfl
  | num n =>
    rw [reread]
    obtain heq | heq | ⟨v, heq, -⟩ := n.reread_eq <;> rw [heq] <;> rfl
  | arr items ih =>
    rw [reread, rereadItems_eq_map, depth, depth, Nat.add_right_cancel_iff]
    refine Nat.le_antisymm (depthItems_le.2 ?_) (depthItems_le.2 ?_)
    · rw [List.forall_mem_map]
      exact fun j hj => (ih j hj).trans_le (depthItems_le.1 (Nat.le_refl _) j hj)
    · intro j hj
      rw [← ih j hj]
      exact depthItems_le.1 (Nat.le_refl _) _ (List.mem_map_of_mem hj)
  | obj fields ih =>
    rw [reread, rereadFields_eq_map, depth, depth, Nat.add_right_cancel_iff]
    refine Nat.le_antisymm (depthFields_le.2 ?_) (depthFields_le.2 ?_)
    · rw [List.forall_mem_map]
      exact fun f hf => (ih f hf).trans_le (depthFields_le.1 (Nat.le_refl _) f hf)
    · intro f hf
      rw [← ih f hf]
      exact depthFields_le.1 (Nat.le_refl _) (f.1, f.2.reread)
        (List.mem_map_of_mem (f := fun f : String × Json => (f.1, f.2.reread)) hf)

end PagePipes.Json

namespace PagePipes.Document

variable {j : Json} {items : List Json} {fields : List (String × Json)}

theorem ofItems_eq_map : ofItems items = items.map ofJson := by
  induction items with
  | nil => rfl
  | cons j items ih => rw [ofItems, ih, List.map_cons]

theorem ofFields_eq_map : ofFields fields = fields.map fun f => (some f.1, ofJson f.2) := by
  induction fields with
  | nil => rfl
  | cons f fields ih => rw [ofFields, ih, List.map_cons]

theorem ofItemsAt_eq_map {depth : Nat} : ofItemsAt depth items = items.map (ofJsonAt depth) := by
  induction items with
  | nil => rfl
  | cons j items ih => rw [ofItemsAt, ih, List.map_cons]

theorem ofFieldsAt_eq_map {depth : Nat} :
    ofFieldsAt depth fields = fields.map fun f => (some f.1, ofJsonAt depth f.2) := by
  induction fields with
  | nil => rfl
  | cons f fields ih => rw [ofFieldsAt, ih, List.map_cons]

/-- The place of a value does not matter when nothing in it is nested too deeply. -/
theorem ofJsonAt_eq {depth : Nat} (h : depth + j.depth < depthLimit) : ofJsonAt depth j = ofJson j := by
  induction j using Json.induct generalizing depth with
  | null | bool b | num n | str s => rfl
  | arr items ih =>
    rw [Json.depth] at h
    rw [ofJsonAt, nested, if_pos (by omega), ofJson, ofItemsAt_eq_map, ofItems_eq_map]
    refine congrArg (array · true) (List.map_congr_left fun j hj => ih j hj ?_)
    have := Json.depthItems_le.1 (Nat.le_refl _) j hj
    omega
  | obj fields ih =>
    rw [Json.depth] at h
    rw [ofJsonAt, nested, if_pos (by omega), ofJson, ofFieldsAt_eq_map, ofFields_eq_map]
    refine congrArg (object · true) (List.map_congr_left fun f hf => ?_)
    have := Json.depthFields_le.1 (Nat.le_refl _) f hf
    rw [ih f hf (by omega)]

theorem toItems?_ofItems (h : ∀ j ∈ items, (ofJson j).toJson? = some j) :
    toItems? (ofItems items) = some items := by
  induction items with
  | nil => rfl
  | cons j items ih =>
    obtain ⟨hj, hitems⟩ := List.forall_mem_cons.1 h
    simp [ofItems, toItems?, hj, ih hitems]

theorem toFields?_ofFields (h : ∀ f ∈ fields, (ofJson f.2).toJson? = some f.2) :
    toFields? (ofFields fields) = some fields := by
  induction fields with
  | nil => rfl
  | cons f fields ih =>
    obtain ⟨hf, hfields⟩ := List.forall_mem_cons.1 h
    simp [ofFields, toFields?, hf, ih hfields]

/-- Of repeated fields a document keeps the last, and it keeps no order; sorted values lose
nothing. -/
theorem toJson?_ofJson (h : j.Sorted) : (ofJson j).toJson? = some j := by
  induction j using Json.induct with
  | null | bool b | num n | str s => rfl
  | arr items ih =>
    have hitems := toItems?_ofItems fun j hj => ih j hj (Json.sortedItems_iff.1 h j hj)
    simp [ofJson, toJson?, hitems]
  | obj fields ih =>
    obtain ⟨hkeys, hvalues⟩ := h
    have hfields := toFields?_ofFields fun f hf => ih f hf (Json.sortedFields_iff.1 hvalues f hf)
    simp [ofJson, toJson?, hfields, Json.sortFields_eq_of_perm (.refl _) hkeys]

/-- The value of an object whose fields are not in order but whose values are sorted. -/
theorem toJson?_obj (h : ∀ f ∈ fields, f.2.Sorted) :
    (ofJson (.obj fields)).toJson? = some (.obj (Json.sortFields fields)) := by
  have hfields := toFields?_ofFields fun f hf => toJson?_ofJson (h f hf)
  simp [ofJson, toJson?, hfields]

end PagePipes.Document

namespace PagePipes.Decoder

variable {α : Type} {j : Json}

theorem ofText_compact_eq_ok {decoder : Origin → Decoder α} {a : α} (hj : j.Readable) :
    ofText decoder j.compact = .ok a ↔ decoder .text (.ofJsonAt 0 j.reread) = .ok a := by
  simp only [ofText, Document.read_compact hj, ↓reduceIte]
  split
  · next b hb => simp [hb]
  · next fault hfault => split <;> simp [hfault]

/-- Decoding a written value does not depend on its line breaks. -/
theorem ofText_pretty (decoder : Origin → Decoder α) (hj : j.Readable) :
    ofText decoder j.pretty = ofText decoder j.compact := by
  simp only [ofText, Document.read_pretty hj, Document.read_compact hj]

theorem ofText_compact {decoder : Origin → Decoder α} {a : α} (hj : j.Readable)
    (hdepth : j.depth < Document.depthLimit) (h : decoder .text (.ofJson j.reread) = .ok a) :
    ofText decoder j.compact = .ok a := by
  have hplace : Document.ofJsonAt 0 j.reread = .ofJson j.reread :=
    Document.ofJsonAt_eq (by rwa [Json.depth_reread, Nat.zero_add])
  rwa [ofText_compact_eq_ok hj, hplace]

theorem ofValue_eq_ok {decoder : Origin → Decoder α} {a : α}
    (h : decoder .value (.ofJson j) = .ok a) : ofValue decoder j = .ok a := by
  simp [ofValue, h]

end PagePipes.Decoder
