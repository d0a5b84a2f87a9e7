import PagePipes.Proofs.Json.Values

set_option autoImplicit false

/-!
# What can be read

In the document of a text so many containers stand inside one another at most, and its integers fit
in 64 bits. What stands deeper has no value. So the values in it are such as can be written and read
again.
-/
namespace PagePipes

/-- A value as a reader makes it, with at most so many containers inside one another. -/
structure Json.Within (n : Nat) (j : Json) : Prop where
  readable : j.Readable
  sorted : j.Sorted
  depth : j.depth ≤ n

/-- A document whose parts have values within a depth, when they have values. -/
def Document.Shallow : Nat → Document → Prop
  | _, .number v => ∀ m, v = some m → m.Fits
  | 0, .array _ _ | 0, .object _ _ => False
  | n + 1, .array items _ => ∀ d ∈ items, Shallow n d
  | n + 1, .object fields _ => ∀ f ∈ fields, Shallow n f.2
  | _, _ => True

namespace Json

variable {n m : Nat} {j : Json} {items : List Json} {fields : List (String × Json)}

theorem mem_sortFields {f : String × Json} (h : f ∈ sortFields fields) : f ∈ fields := by
  unfold sortFields at h
  induction fields using List.reverseRecOn with
  | nil => exact h
  | append_singleton fields g ih =>
    rw [List.foldl_append] at h
    obtain rfl | h := mem_setField h
    · exact List.mem_append_right _ (List.mem_singleton_self g)
    · exact List.mem_append_left _ (ih h)

namespace Within

theorem plain (hreadable : j.Readable) (hsorted : j.Sorted) (hdepth : j.depth = 0) : j.Within n :=
  ⟨hreadable, hsorted, hdepth ▸ Nat.zero_le n⟩

theorem arr (h : ∀ j ∈ items, j.Within n) : (Json.arr items).Within (n + 1) where
  readable := readableItems_iff.2 fun j hj => (h j hj).readable
  sorted := sortedItems_iff.2 fun j hj => (h j hj).sorted
  depth := Nat.add_le_add_right (depthItems_le.2 fun j hj => (h j hj).depth) 1

/-- However the fields stand in the text, a value holds them in order. -/
theorem obj (h : ∀ f ∈ fields, f.2.Within n) : (Json.obj (sortFields fields)).Within (n + 1) where
  readable := readableFields_iff.2 fun f hf => (h f (mem_sortFields hf)).readable
  sorted := ⟨sorted_sortFields, sortedFields_iff.2 fun f hf => (h f (mem_sortFields hf)).sorted⟩
  depth := Nat.add_le_add_right (depthFields_le.2 fun f hf => (h f (mem_sortFields hf)).depth) 1

end Within
end Json

namespace Document

variable {n : Nat} {d : Document} {closed : Bool}

@[simp] theorem shallow_null : null.Shallow n := by cases n <;> trivial

@[simp] theorem shallow_bool {b : Bool} : (bool b).Shallow n := by cases n <;> trivial

@[simp] theorem shallow_text {s : Option String} : (text s).Shallow n := by cases n <;> trivial

@[simp] theorem shallow_deep : (deep closed).Shallow n := by cases n <;> trivial

@[simp] theorem shallow_broken : broken.Shallow n := by cases n <;> trivial

theorem shallow_number {v : Option Number} :
    (number v).Shallow n ↔ ∀ m, v = some m → m.Fits := by cases n <;> rfl

theorem shallow_array {items : List Document} :
    (array items closed).Shallow n ↔ ∃ m, n = m + 1 ∧ ∀ d ∈ items, d.Shallow m := by
  cases n <;> simp [Shallow]

theorem shallow_object {fields : List (Option String × Document)} :
    (object fields closed).Shallow n ↔ ∃ m, n = m + 1 ∧ ∀ f ∈ fields, f.2.Shallow m := by
  cases n <;> simp [Shallow]

/-! ## Values of documents -/

theorem toItems?_eq_some {ds : List Document} {js : List Json} (h : toItems? ds = some js) :
    List.Forall₂ (fun d j => d.toJson? = some j) ds js := by
  induction ds generalizing js with
  | nil =>
    cases h
    exact .nil
  | cons d ds ih =>
    obtain ⟨j, hj, h⟩ := Option.bind_eq_some_iff.1 h
    obtain ⟨rest, hrest, h⟩ := Option.bind_eq_some_iff.1 h
    cases h
    exact .cons hj (ih hrest)

theorem toFields?_eq_some {fs : List (Option String × Document)} {js : List (String × Json)}
    (h : toFields? fs = some js) :
    List.Forall₂ (fun f g => f.1 = some g.1 ∧ f.2.toJson? = some g.2) fs js := by
  induction fs generalizing js with
  | nil =>
    cases h
    exact .nil
  | cons f fs ih =>
    obtain ⟨k, hk, h⟩ := Option.bind_eq_some_iff.1 h
    obtain ⟨j, hj, h⟩ := Option.bind_eq_some_iff.1 h
    obtain ⟨rest, hrest, h⟩ := Option.bind_eq_some_iff.1 h
    cases h
    exact .cons ⟨hk, hj⟩ (ih hrest)

/-- What is nested too deeply has no value. -/
theorem depth_of_toJson? {depth : Nat} {j k : Json} (hdepth : depth < depthLimit)
    (h : (ofJsonAt depth j).toJson? = some k) : depth + j.depth < depthLimit := by
  induction j using Json.induct generalizing depth k with
  | null | bool b | num n | str s => exact hdepth
  | arr items ih =>
    rw [ofJsonAt, nested] at h
    split at h
    · next hnested =>
      obtain ⟨js, hjs, -⟩ := Option.map_eq_some_iff.1 h
      suffices hitems : Json.depthItems items ≤ depthLimit - 1 - (depth + 1) by
        rw [Json.depth]
        omega
      refine Json.depthItems_le.2 fun j hj => ?_
      rw [ofItemsAt_eq_map] at hjs
      obtain ⟨v, -, hv⟩ := Result.exists_of_forall₂ (toItems?_eq_some hjs) (List.mem_map_of_mem hj)
      have := ih j hj hnested hv
      omega
    · cases h
  | obj fields ih =>
    rw [ofJsonAt, nested] at h
    split at h
    · next hnested =>
      obtain ⟨js, hjs, -⟩ := Option.map_eq_some_iff.1 h
      suffices hfields : Json.depthFields fields ≤ depthLimit - 1 - (depth + 1) by
        rw [Json.depth]
        omega
      refine Json.depthFields_le.2 fun f hf => ?_
      rw [ofFieldsAt_eq_map] at hjs
      obtain ⟨v, -, -, hv⟩ := Result.exists_of_forall₂ (toFields?_eq_some hjs)
        (List.mem_map_of_mem (f := fun f : String × Json => (some f.1, ofJsonAt (depth + 1) f.2)) hf)
      have := ih f hf hnested hv
      omega
    · cases h

theorem within_of_toJson? {j : Json} (hd : d.Shallow n) (h : d.toJson? = some j) :
    j.Within n := by
  induction n using Nat.strong_induction_on generalizing d j with
  | _ n ih =>
    cases d with
    | null | bool b =>
      cases h
      exact .plain trivial trivial rfl
    | number v =>
      obtain ⟨m, hm, rfl⟩ := Option.map_eq_some_iff.1 h
      exact .plain (shallow_number.1 hd m hm) trivial rfl
    | text s =>
      obtain ⟨t, -, rfl⟩ := Option.map_eq_some_iff.1 h
      exact .plain trivial trivial rfl
    | array items closed =>
      obtain ⟨m, rfl, hitems⟩ := shallow_array.1 hd
      rw [toJson?] at h
      split_ifs at h
      obtain ⟨js, hjs, rfl⟩ := Option.map_eq_some_iff.1 h
      refine .arr fun j hj => ?_
      obtain ⟨d, hmem, hdj⟩ := Result.exists_of_forall₂ (toItems?_eq_some hjs).flip hj
      exact ih m m.lt_succ_self (hitems d hmem) hdj
    | object fields closed =>
      obtain ⟨m, rfl, hfields⟩ := shallow_object.1 hd
      rw [toJson?] at h
      split_ifs at h
      obtain ⟨js, hjs, rfl⟩ := Option.map_eq_some_iff.1 h
      refine .obj fun g hg => ?_
      obtain ⟨f, hmem, -, hfg⟩ := Result.exists_of_forall₂ (toFields?_eq_some hjs).flip hg
      exact ih m m.lt_succ_self (hfields f hmem) hfg
    | deep closed | broken => cases h

theorem shallow_ofJson {j : Json} (h : j.Within n) : (ofJson j).Shallow n := by
  obtain ⟨hreadable, -, hdepth⟩ := h
  induction j using Json.induct generalizing n with
  | null => exact shallow_null
  | bool b => exact shallow_bool
  | str s => exact shallow_text
  | num v =>
    refine shallow_number.2 fun m hm => ?_
    cases hm
    exact hreadable
  | arr items ih =>
    obtain ⟨m, rfl⟩ := Nat.exists_eq_add_one_of_ne_zero (Nat.ne_zero_of_lt hdepth)
    refine shallow_array.2 ⟨m, rfl, ?_⟩
    rw [ofItems_eq_map, List.forall_mem_map]
    exact fun j hj => ih j hj (Json.readableItems_iff.1 hreadable j hj)
      (Json.depthItems_le.1 (Nat.le_of_succ_le_succ hdepth) j hj)
  | obj fields ih =>
    obtain ⟨m, rfl⟩ := Nat.exists_eq_add_one_of_ne_zero (Nat.ne_zero_of_lt hdepth)
    refine shallow_object.2 ⟨m, rfl, ?_⟩
    rw [ofFields_eq_map, List.forall_mem_map]
    exact fun f hf => ih f hf (Json.readableFields_iff.1 hreadable f hf)
      (Json.depthFields_le.1 (Nat.le_of_succ_le_succ hdepth) f hf)

/-! ## Documents of texts -/

theorem shallow_word {w : String} {cs : List Char} (hd : d.Shallow n) :
    (word w d cs).1.Shallow n := by
  unfold word
  split
  · exact hd
  · exact shallow_broken

/-- At the limit there is no value, and before it one container less is left for the parts. -/
theorem shallow_container {c : Document} {depth : Nat}
    (h : ∀ m, depthLimit - 1 - (depth + 1) = m → c.Shallow (m + 1)) :
    (if depth + 1 < depthLimit then c else deep closed).Shallow (depthLimit - 1 - depth) := by
  split_ifs with hlt
  · have hleft : depthLimit - 1 - depth = depthLimit - 1 - (depth + 1) + 1 := by omega
    rw [hleft]
    exact h _ rfl
  · exact shallow_deep

section Steps

variable {fuel : Nat}
  (hvalue : ∀ depth cs, (readValue fuel depth cs).1.Shallow (depthLimit - 1 - depth))
  (hitems : ∀ depth cs, ∀ d ∈ (readItems fuel depth cs).1, d.Shallow (depthLimit - 1 - depth))
  (hfields : ∀ depth cs, ∀ f ∈ (readFields fuel depth cs).1, f.2.Shallow (depthLimit - 1 - depth))

include hitems hfields in
theorem shallow_readValue (depth : Nat) (cs : List Char) :
    (readValue (fuel + 1) depth cs).1.Shallow (depthLimit - 1 - depth) := by
  rw [readValue]
  split
  · exact shallow_word shallow_null
  · exact shallow_word shallow_bool
  · exact shallow_word shallow_bool
  · split
    · exact shallow_text
    · exact shallow_broken
  · refine shallow_container fun m hm => shallow_array.2 ⟨m, rfl, ?_⟩
    split
    · simp
    · exact hm ▸ hitems _ _
  · refine shallow_container fun m hm => shallow_object.2 ⟨m, rfl, ?_⟩
    split
    · simp
    · exact hm ▸ hfields _ _
  · split
    · exact shallow_number.2 fun m hm => fits_of_value hm
    · exact shallow_broken

include hvalue hitems in
theorem shallow_readItems (depth : Nat) (cs : List Char) :
    ∀ d ∈ (readItems (fuel + 1) depth cs).1, d.Shallow (depthLimit - 1 - depth) := by
  have hfirst := hvalue depth cs
  rw [readItems]
  generalize readValue fuel depth cs = r at hfirst ⊢
  obtain ⟨d, _ | rest⟩ := r
  · exact List.forall_mem_singleton.2 hfirst
  · dsimp only
    split
    · exact List.forall_mem_singleton.2 hfirst
    · split
      · exact List.forall_mem_singleton.2 hfirst
      · exact List.forall_mem_cons.2 ⟨hfirst, hitems _ _⟩
    · exact List.forall_mem_singleton.2 hfirst

include hvalue hfields in
theorem shallow_readFields (depth : Nat) (cs : List Char) :
    ∀ f ∈ (readFields (fuel + 1) depth cs).1, f.2.Shallow (depthLimit - 1 - depth) := by
  rw [readFields]
  split
  · split
    · simp
    · split
      · next cs _ =>
        have hfirst := hvalue depth cs
        generalize readValue fuel depth cs = r at hfirst ⊢
        obtain ⟨d, _ | rest⟩ := r
        · exact List.forall_mem_singleton.2 hfirst
        · dsimp only
          split
          · exact List.forall_mem_singleton.2 hfirst
          · split
            · exact List.forall_mem_singleton.2 hfirst
            · exact List.forall_mem_cons.2 ⟨hfirst, hfields _ _⟩
          · exact List.forall_mem_singleton.2 hfirst
      · simp
  · simp

end Steps

/-- By induction on the fuel, for every depth at once. -/
theorem shallow_read (fuel : Nat) :
    (∀ depth cs, (readValue fuel depth cs).1.Shallow (depthLimit - 1 - depth)) ∧
    (∀ depth cs, ∀ d ∈ (readItems fuel depth cs).1, d.Shallow (depthLimit - 1 - depth)) ∧
    (∀ depth cs, ∀ f ∈ (readFields fuel depth cs).1, f.2.Shallow (depthLimit - 1 - depth)) := by
  induction fuel with
  | zero => simp [readValue, readItems, readFields]
  | succ fuel ih =>
    obtain ⟨hvalue, hitems, hfields⟩ := ih
    exact ⟨shallow_readValue hitems hfields, shallow_readItems hvalue hitems,
      shallow_readFields hvalue hfields⟩

theorem shallow_of_read (s : String) : (read s).1.Shallow (depthLimit - 1) := by
  have h := (shallow_read (2 * s.toList.length + 2)).1 0 s.toList
  unfold read
  dsimp only
  generalize readValue (2 * s.toList.length + 2) 0 s.toList = r at h ⊢
  obtain ⟨d, _ | rest⟩ := r
  · exact h
  · exact h

end Document
end PagePipes
