import PagePipes.Pipe
import PagePipes.Proofs.Json.Fields
import PagePipes.Proofs.WrittenKeys

set_option autoImplicit false

/-!
# Written pipes are read

A pipe whose actions hold values as a reader makes them is read back from its text: the same point,
and actions with the same arguments up to their floats. So the references stay what they were.
-/
namespace PagePipes

/-- An action whose arguments are as a reader makes them: integers fit in 64 bits, objects are
sorted, and values are not nested so deeply that the text of a pipe with the action cannot be
read. -/
def Action.Readable (a : Action) : Prop :=
  ∀ name v, a.get? name = some v → v.Readable ∧ v.Sorted ∧ v.depth ≤ 124

def Pipe.Readable (p : Pipe) : Prop := ∀ a ∈ p.actions, a.Readable

/-- The action after it has been written and read. -/
def Action.reread (a : Action) : Action := ⟨a.arguments.map fun _ j => j.reread⟩

def Pipe.reread (p : Pipe) : Pipe := { p with actions := p.actions.map Action.reread }

namespace Action

variable {a : Action}

theorem mem_fields {f : String × Json} : f ∈ a.arguments.toList ↔ a.get? f.1 = some f.2 :=
  Std.ExtTreeMap.mem_toList_iff_getElem?_eq_some

theorem Readable.readable_toJson (h : a.Readable) : a.toJson.Readable := by
  rw [toJson, Json.Readable, Json.readableFields_iff]
  exact fun f hf => (h f.1 f.2 (mem_fields.1 hf)).1

theorem Readable.sorted_toJson (h : a.Readable) : a.toJson.Sorted := by
  constructor
  · have hordered := @Std.ExtTreeMap.ordered_keys_toList _ _ _ a.arguments _
    exact hordered.imp fun hlt => compareOfLessAndEq_eq_lt.1 hlt
  · rw [Json.sortedFields_iff]
    exact fun f hf => (h f.1 f.2 (mem_fields.1 hf)).2.1

theorem depth_toJson {n : Nat} (h : ∀ name v, a.get? name = some v → v.depth ≤ n) :
    a.toJson.depth ≤ n + 1 :=
  Nat.add_le_add_right (Json.depthFields_le.2 fun f hf => h f.1 f.2 (mem_fields.1 hf)) 1

theorem Readable.setString (h : a.Readable) {name value : String} :
    (a.setString name value).Readable := by
  intro m v hv
  rw [Action.setString, get?_set] at hv
  split at hv
  · cases hv
    exact ⟨trivial, trivial, Nat.zero_le _⟩
  · exact h m v hv

theorem readable_ofKind (k : ActionKind) : (ofKind k).Readable :=
  Readable.setString (a := ⟨∅⟩) fun name v hv => by simp [get?] at hv

theorem Readable.setKey (h : a.Readable) {k : Key} : (a.setKey k).Readable := by
  unfold Action.setKey
  cases k.digest with
  | none => exact h.setString
  | some d => exact h.setString.setString

@[simp] theorem toJson_reread : a.reread.toJson = a.toJson.reread := by
  rw [toJson, toJson, Json.reread, Json.rereadFields_eq_map, reread, Std.ExtTreeMap.toList_map]

theorem Readable.reread (h : a.Readable) : a.reread.Readable := by
  intro name v hv
  simp only [get?, Action.reread, Std.ExtTreeMap.getElem?_map, Option.map_eq_some_iff] at hv
  obtain ⟨w, hw, rfl⟩ := hv
  obtain ⟨hreadable, hsorted, hdepth⟩ := h name w hw
  exact ⟨Json.readable_reread hreadable, Json.sorted_reread hsorted, by rwa [Json.depth_reread]⟩

theorem ofFields_toList (a : Action) : ofFields a.arguments.toList = a := by
  obtain ⟨m⟩ := a
  rw [ofFields, ← Std.ExtTreeMap.ofList_eq_foldl, Action.mk.injEq]
  apply Std.ExtTreeMap.ext_getElem?
  intro name
  have hdistinct := @Std.ExtTreeMap.distinct_keys_toList String Json compare m _
  cases hm : m[name]? with
  | some j =>
    rw [Std.ExtTreeMap.getElem?_ofList_of_mem Std.ReflCmp.compare_self hdistinct
      (Std.ExtTreeMap.mem_toList_iff_getElem?_eq_some.2 hm)]
  | none =>
    apply Std.ExtTreeMap.getElem?_ofList_of_contains_eq_false
    rw [Std.ExtTreeMap.map_fst_toList_eq_keys, Bool.eq_false_iff, ne_eq, List.contains_iff_mem,
      Std.ExtTreeMap.mem_keys, Std.ExtTreeMap.mem_iff_isSome_getElem?, hm]
    simp

theorem decoder_toJson (h : a.toJson.Sorted) : decoder (.ofJson a.toJson) = .ok a := by
  obtain ⟨-, hvalues⟩ := h
  rw [toJson, Document.ofJson, Document.ofFields_eq_map, decoder,
    Result.mapM_map_eq_ok fun f hf => ?_]
  · exact congrArg Except.ok (ofFields_toList a)
  · rw [Document.toJson?_ofJson (Json.sortedFields_iff.1 hvalues f hf)]

@[simp] theorem get?_reread {n : String} : a.reread.get? n = (a.get? n).map Json.reread := by
  rw [get?, get?, reread, Std.ExtTreeMap.getElem?_map]

@[simp] theorem string?_reread {n : String} : a.reread.string? n = a.string? n := by
  unfold string?
  rw [get?_reread]
  cases a.get? n with
  | none => rfl
  | some j =>
    cases j with
    | num m => obtain h | h | ⟨v, h, -⟩ := m.reread_eq <;> simp [Json.reread, h]
    | _ => rfl

@[simp] theorem is_reread {k : ActionKind} : a.reread.is k = a.is k := by rw [is, is, string?_reread]

@[simp] theorem reference_reread : a.reread.reference = a.reference := by simp [reference]

theorem kind_eq_ok {k : ActionKind} :
    a.kind = .ok k ↔ ∃ s, a.string? tag = some s ∧ ActionKind.parse s = .ok k := by
  unfold kind string?
  split <;> simp_all

@[simp] theorem validateArgument_reread {k : ActionKind} {n : String} :
    a.reread.validateArgument k n = a.validateArgument k n := by
  unfold validateArgument
  rw [get?_reread]
  cases a.get? n with
  | none => rfl
  | some j =>
    cases j with
    | num m => obtain h | h | ⟨v, h, -⟩ := m.reread_eq <;> simp [Json.reread, h]
    | _ => rfl

@[simp] theorem validateFlag_reread : a.reread.validateFlag = a.validateFlag := by
  funext n
  unfold validateFlag
  rw [get?_reread]
  cases a.get? n with
  | none => rfl
  | some j =>
    cases j with
    | num m => obtain h | h | ⟨v, h, -⟩ := m.reread_eq <;> simp [Json.reread, h]
    | _ => rfl

/-- No check looks at a number, so a valid action stays valid. -/
theorem validate_reread (h : a.validate = .ok ()) : a.reread.validate = .ok () := by
  obtain ⟨k, hk, -⟩ := Result.bind_eq_ok.1 h
  have hreread : a.reread.kind = .ok k := by
    rw [kind_eq_ok, string?_reread]
    exact kind_eq_ok.1 hk
  rw [← h, validate, validate, hk, hreread]
  simp

end Action

namespace Point

theorem decoder_toJson (origin : Origin) (p : Point) : decoder origin (.ofJson p.toJson) = .ok p := by
  obtain ⟨nullable, repeated, scalar⟩ := p
  cases origin <;> cases nullable <;> cases repeated <;> cases scalar <;> rfl

theorem reread_toJson (p : Point) : p.toJson.reread = p.toJson := by
  obtain ⟨nullable, repeated, scalar⟩ := p
  cases nullable <;> cases repeated <;> cases scalar <;> rfl

theorem readable_toJson (p : Point) : p.toJson.Readable := by
  obtain ⟨nullable, repeated, scalar⟩ := p
  cases nullable <;> cases repeated <;> simp [toJson, flag, Json.Readable, Json.ReadableFields]

theorem sorted_toJson (p : Point) : p.toJson.Sorted := by
  have hkeys : ["nullable", "repeated", "scalar"].Pairwise (· < ·) := by decide +kernel
  constructor
  · refine Json.pairwise_of_keys ?_ hkeys
    simp only [List.map_append]
    exact (Json.keys_flag.append Json.keys_flag).append (.refl _)
  · rw [Json.sortedFields_iff]
    intro f hf
    obtain hf | hf := List.mem_append.1 hf
    · obtain hf | hf := List.mem_append.1 hf <;> (rw [Json.mem_flag hf]; trivial)
    · rw [List.mem_singleton.1 hf]
      trivial

theorem depth_toJson (p : Point) : p.toJson.depth = 1 := by
  obtain ⟨nullable, repeated, scalar⟩ := p
  cases nullable <;> cases repeated <;> rfl

end Point

namespace Pipe

variable {p : Pipe}

theorem Readable.reread (h : p.Readable) : p.reread.Readable := by
  rw [Readable, Pipe.reread, List.forall_mem_map]
  exact fun a ha => (h a ha).reread

theorem toJson_reread : p.reread.toJson = p.toJson.reread := by
  have hactions : (p.actions.map Action.reread).map Action.toJson =
      (p.actions.map Action.toJson).map Json.reread := by simp
  simp [toJson, reread, hactions, Point.reread_toJson]

theorem mem_fields {f : String × Json}
    (h : f ∈ listField "actions" (p.actions.map Action.toJson) ++ [("point", p.point.toJson)]) :
    f = ("actions", .arr (p.actions.map Action.toJson)) ∨ f = ("point", p.point.toJson) :=
  (List.mem_append.1 h).imp Json.mem_listField List.mem_singleton.1

theorem readable_toJson (h : p.Readable) : p.toJson.Readable := by
  rw [toJson, Json.Readable, Json.readableFields_iff]
  intro f hf
  obtain rfl | rfl := mem_fields hf
  · rw [Json.Readable, Json.readableItems_iff, List.forall_mem_map]
    exact fun a ha => (h a ha).readable_toJson
  · exact p.point.readable_toJson

theorem sorted_toJson (h : p.Readable) : p.toJson.Sorted := by
  have hkeys : ["actions", "point"].Pairwise (· < ·) := by decide +kernel
  constructor
  · refine Json.pairwise_of_keys ?_ hkeys
    rw [List.map_append]
    exact Json.keys_listField.append (.refl _)
  · rw [Json.sortedFields_iff]
    intro f hf
    obtain rfl | rfl := mem_fields hf
    · rw [Json.Sorted, Json.sortedItems_iff, List.forall_mem_map]
      exact fun a ha => (h a ha).sorted_toJson
    · exact p.point.sorted_toJson

theorem depth_le {n : Nat} (h : ∀ a ∈ p.actions, ∀ name v, a.get? name = some v → v.depth ≤ n) :
    p.toJson.depth ≤ n + 3 := by
  refine Nat.add_le_add_right (Json.depthFields_le.2 fun f hf => ?_) 1
  obtain rfl | rfl := mem_fields hf
  · refine Nat.add_le_add_right (Json.depthItems_le.2 ?_) 1
    rw [List.forall_mem_map]
    exact fun a ha => Action.depth_toJson (h a ha)
  · rw [p.point.depth_toJson]
    omega

theorem depth_toJson (h : p.Readable) : p.toJson.depth ≤ 127 :=
  depth_le fun a ha name v hv => (h a ha name v hv).2.2

theorem decoder_toJson (origin : Origin) (h : p.Readable) :
    decoder origin (.ofJson p.toJson) = .ok p := by
  have hactions := Decoder.list_ofItems fun a ha => Action.decoder_toJson (h a ha).sorted_toJson
  have hpoint := p.point.decoder_toJson origin
  obtain ⟨actions, point⟩ := p
  obtain ⟨actions', hactions'⟩ : ∃ o, o = if actions = [] then none else some actions := ⟨_, rfl⟩
  simp only [toJson, Document.ofJson, decoder, Decoder.record, Document.ofFields_append,
    Decoder.objectFields_append]
  rw [@Decoder.objectFields_listField Draft _ _ {} { actions := actions' } _ _ rfl (by simp_all) (by
      intro hne
      simp only [Decoder.once, hactions, Option.isSome_none, Bool.false_eq_true, ↓reduceIte]
      simp_all [Except.map]), Result.ok_bind,
    @Decoder.objectFields_singleton Draft _ _ _ { actions := actions', point := some point } _ _ rfl
      (by simp only [Decoder.once, hpoint]; rfl), Result.ok_bind]
  rw [hactions']
  cases actions <;> rfl

/-- A written pipe is read back up to the floats in its actions. -/
theorem ofText_compact (h : p.Readable) : Decoder.ofText decoder p.toJson.compact = .ok p.reread := by
  refine Decoder.ofText_compact (readable_toJson h) ((depth_toJson h).trans_lt (by decide)) ?_
  rw [← toJson_reread]
  exact decoder_toJson .text h.reread

theorem validateFrom_eq_ok {i : Nat} {actions : List Action} :
    validateFrom i actions = .ok () ↔
      ∀ a ∈ actions, a.validate = .ok () ∧ a.is .exchange = false := by
  induction actions generalizing i with
  | nil => simp [validateFrom]
  | cons a rest ih =>
    have ha : validateAction i a = .ok () ↔ a.validate = .ok () ∧ a.is .exchange = false := by
      unfold validateAction
      cases hv : a.validate <;> cases hx : a.is .exchange <;> simp
    rw [validateFrom, Result.bind_eq_ok, List.forall_mem_cons, ← ha, ← ih (i := i + 1)]
    exact ⟨fun ⟨⟨⟩, h⟩ => h, fun h => ⟨(), h⟩⟩

theorem validate_eq_ok : p.validate = .ok () ↔
    p.actions ≠ [] ∧ ∀ a ∈ p.actions, a.validate = .ok () ∧ a.is .exchange = false := by
  rw [← validateFrom_eq_ok (i := 0), validate]
  cases p.actions <;> simp

theorem validate_reread (h : p.validate = .ok ()) : p.reread.validate = .ok () := by
  obtain ⟨hne, hactions⟩ := validate_eq_ok.1 h
  refine validate_eq_ok.2 ⟨by simpa [reread] using hne, List.forall_mem_map.2 fun a ha => ?_⟩
  obtain ⟨hvalid, hplain⟩ := hactions a ha
  exact ⟨Action.validate_reread hvalid, by rwa [Action.is_reread]⟩

@[simp] theorem references_reread : p.reread.references = p.references := by
  unfold references reread
  induction p.actions with
  | nil => rfl
  | cons a actions ih =>
    cases ha : a.is .pipe <;>
      simp only [List.map_cons, List.filter_cons, Action.is_reread, ha, Bool.false_eq_true,
        ↓reduceIte, List.filterMap_cons, Action.reference_reread, ih]

end Pipe
end PagePipes
