import PagePipes.Proofs.Json.Values
import PagePipes.View

set_option autoImplicit false

/-!
# Optional fields

Records are encoded as lists of fields of which some are left out: texts that are missing, lists
that are empty and flags that are not set. A decoder that takes one field after the other comes to
the same state whether a field of a default is there or not.
-/
namespace PagePipes

namespace Json

variable {name : String} {value : Option String} {items : List Json} {b : Bool}
  {f : String × Json} {fields : List (String × Json)}

theorem mem_textField (h : f ∈ Column.textField name value) : ∃ t, f = (name, .str t) := by
  obtain ⟨t, -, rfl⟩ := List.mem_map.1 h
  exact ⟨t, rfl⟩

theorem mem_listField (h : f ∈ Pipe.listField name items) : f = (name, .arr items) := by
  unfold Pipe.listField at h
  split at h
  · simp at h
  · exact List.mem_singleton.1 h

theorem mem_flag (h : f ∈ Point.flag name b) : f = (name, .bool true) := by
  unfold Point.flag at h
  split at h
  · exact List.mem_singleton.1 h
  · simp at h

theorem keys_textField : ((Column.textField name value).map (·.1)).Sublist [name] := by
  cases value <;> simp [Column.textField]

theorem keys_listField : ((Pipe.listField name items).map (·.1)).Sublist [name] := by
  cases items <;> simp [Pipe.listField]

theorem keys_flag : ((Point.flag name b).map (·.1)).Sublist [name] := by
  cases b <;> simp [Point.flag]

theorem pairwise_of_keys {keys : List String} (h : (fields.map (·.1)).Sublist keys)
    (hkeys : keys.Pairwise (· < ·)) : fields.Pairwise fun a b => a.1 < b.1 :=
  List.pairwise_map.1 (hkeys.sublist h)

@[simp] theorem reread_str (s : String) : (Json.str s).reread = .str s := rfl

@[simp] theorem reread_arr : (Json.arr items).reread = .arr (items.map reread) := by
  rw [reread, rereadItems_eq_map]

@[simp] theorem reread_obj :
    (Json.obj fields).reread = .obj (fields.map fun f => (f.1, f.2.reread)) := by
  rw [reread, rereadFields_eq_map]

@[simp] theorem map_reread_textField :
    (Column.textField name value).map (fun f => (f.1, f.2.reread)) =
      Column.textField name value := by
  cases value <;> rfl

@[simp] theorem map_reread_listField :
    (Pipe.listField name items).map (fun f => (f.1, f.2.reread)) =
      Pipe.listField name (items.map reread) := by
  cases items <;> simp [Pipe.listField]

@[simp] theorem map_reread_flag :
    (Point.flag name b).map (fun f => (f.1, f.2.reread)) = Point.flag name b := by
  cases b <;> rfl

end Json

namespace Document

theorem ofFields_append {xs ys : List (String × Json)} :
    ofFields (xs ++ ys) = ofFields xs ++ ofFields ys := by
  simp [ofFields_eq_map]

end Document

namespace Decoder

variable {σ : Type} {layout : Layout} {step : σ → String → Document → Except DecodeFault σ}
  {s next : σ} {name : String}

theorem objectFields_append {xs ys : List (Option String × Document)} :
    objectFields layout step s (xs ++ ys) =
      objectFields layout step s xs >>= fun s => objectFields layout step s ys := by
  induction xs generalizing s with
  | nil => rfl
  | cons f xs ih =>
    obtain ⟨key, d⟩ := f
    cases key with
    | none => rfl
    | some name =>
      simp only [List.cons_append, objectFields]
      split
      · cases step s name d with
        | error e => rfl
        | ok t => exact ih
      · split
        · exact ih
        · rfl

theorem objectFields_singleton {j : Json} (hname : (layout.lookup name).isSome = true)
    (h : step s name (.ofJson j) = .ok next) :
    objectFields layout step s (Document.ofFields [(name, j)]) = .ok next := by
  simp only [Document.ofFields, objectFields, hname, ↓reduceIte, h]
  rfl

theorem objectFields_textField {value : Option String} (hname : (layout.lookup name).isSome = true)
    (hnone : value = none → next = s)
    (hsome : ∀ t, value = some t → step s name (.text (some t)) = .ok next) :
    objectFields layout step s (Document.ofFields (Column.textField name value)) = .ok next := by
  cases value with
  | none => rw [hnone rfl]; rfl
  | some t => exact objectFields_singleton hname (hsome t rfl)

theorem objectFields_listField {items : List Json} (hname : (layout.lookup name).isSome = true)
    (hnil : items = [] → next = s)
    (hcons : items ≠ [] → step s name (.array (Document.ofItems items) true) = .ok next) :
    objectFields layout step s (Document.ofFields (Pipe.listField name items)) = .ok next := by
  cases items with
  | nil => rw [hnil rfl]; rfl
  | cons j items => exact objectFields_singleton hname (hcons (by simp))

theorem objectFields_flag {b : Bool} (hname : (layout.lookup name).isSome = true)
    (hfalse : b = false → next = s) (htrue : b = true → step s name (.bool true) = .ok next) :
    objectFields layout step s (Document.ofFields (Point.flag name b)) = .ok next := by
  cases b with
  | false => rw [hfalse rfl]; rfl
  | true => exact objectFields_singleton hname (htrue rfl)

theorem list_ofItems {α : Type} {inner : Decoder α} {f : α → Json} {xs : List α}
    (h : ∀ x ∈ xs, inner (.ofJson (f x)) = .ok x) :
    list inner (.array (Document.ofItems (xs.map f)) true) = .ok xs := by
  rw [list, Document.ofItems_eq_map, List.map_map, Result.mapM_map_eq_ok (g := Document.ofJson ∘ f) h]
  rfl

end Decoder
end PagePipes
