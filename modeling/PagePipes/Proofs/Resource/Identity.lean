import PagePipes.Proofs.Json.Unique
import PagePipes.Proofs.Plan.Places
import PagePipes.Proofs.Resource.Written

set_option autoImplicit false

/-!
# What a canonical text identifies

A field that a record leaves out is one of a default, so the encoding of a spec or an action is
injective, and compact text of finite numbers is too. A pipe always writes its point and a valid view
its columns, which tells the kinds apart. So two specs of one key, or two actions that meet at a node
of a plan graph, are equal unless two different texts have one SHA-1.
-/
namespace PagePipes

/-- Two different texts of one digest. -/
def Checksum.Sha1.Collide (s t : String) : Prop := s ≠ t ∧ digestText s = digestText t

instance {s t : String} : Decidable (Checksum.Sha1.Collide s t) :=
  inferInstanceAs (Decidable (s ≠ t ∧ Checksum.Sha1.digestText s = Checksum.Sha1.digestText t))

/-! ## Fields -/

namespace Json

variable {name : String} {value : Option String} {items : List Json} {b : Bool}
  {xs ys : List (String × Json)}

theorem listField_injective {items' : List Json}
    (h : Pipe.listField name items = Pipe.listField name items') : items = items' := by
  cases items <;> cases items' <;> simp_all [Pipe.listField]

theorem finite_textField : FiniteFields (Column.textField name value) := by
  cases value <;> simp [Column.textField, FiniteFields, Finite]

theorem finite_flag : FiniteFields (Point.flag name b) := by
  cases b <;> simp [Point.flag, FiniteFields, Finite]

theorem finite_listField (h : ∀ j ∈ items, j.Finite) : FiniteFields (Pipe.listField name items) := by
  rw [finiteFields_iff]
  intro f hf
  rw [mem_listField hf, Finite, finiteItems_iff]
  exact h

theorem finiteFields_append : FiniteFields (xs ++ ys) ↔ FiniteFields xs ∧ FiniteFields ys := by
  simp only [finiteFields_iff, List.forall_mem_append]

end Json

/-! ## Encodings are injective -/

namespace Action

def Finite (a : Action) : Prop := ∀ name v, a.get? name = some v → v.Finite

variable {a b : Action}

theorem Finite.finite_toJson (h : a.Finite) : a.toJson.Finite := by
  rw [toJson, Json.Finite, Json.finiteFields_iff]
  exact fun f hf => h f.1 f.2 (mem_fields.1 hf)

theorem Finite.setString (h : a.Finite) {name value : String} : (a.setString name value).Finite := by
  intro m v hv
  rw [Action.setString, get?_set] at hv
  split at hv
  · cases hv
    trivial
  · exact h m v hv

theorem finite_ofKind (k : ActionKind) : (ofKind k).Finite :=
  Finite.setString (a := ⟨∅⟩) fun name v hv => by simp [get?] at hv

theorem toJson_injective (h : a.toJson = b.toJson) : a = b := by
  rw [← ofFields_toList a, ← ofFields_toList b, Json.obj.inj h]

theorem eq_of_compact (ha : a.Finite) (hb : b.Finite) (h : a.toJson.compact = b.toJson.compact) :
    a = b :=
  toJson_injective (Json.compact_injective ha.finite_toJson hb.finite_toJson h)

end Action

theorem Point.toJson_injective {p q : Point} (h : p.toJson = q.toJson) : p = q := by
  have hp := p.decoder_toJson .value
  rw [h, q.decoder_toJson .value] at hp
  exact (Except.ok.inj hp).symm

theorem Point.finite_toJson (p : Point) : p.toJson.Finite := by
  rw [toJson, Json.Finite, Json.finiteFields_append, Json.finiteFields_append]
  exact ⟨⟨Json.finite_flag, Json.finite_flag⟩, trivial, trivial⟩

namespace Pipe

variable {p q : Pipe}

theorem finite_toJson (h : ∀ a ∈ p.actions, a.Finite) : p.toJson.Finite := by
  rw [toJson, Json.Finite, Json.finiteFields_append]
  refine ⟨Json.finite_listField ?_, p.point.finite_toJson, trivial⟩
  rw [List.forall_mem_map]
  exact fun a ha => (h a ha).finite_toJson

theorem toJson_injective (h : p.toJson = q.toJson) : p = q := by
  obtain ⟨hactions, hpoint⟩ := List.append_inj' (Json.obj.inj h) rfl
  obtain ⟨actions, point⟩ := p
  obtain ⟨actions', point'⟩ := q
  have hinjective : Function.Injective Action.toJson := fun _ _ => Action.toJson_injective
  obtain rfl : actions = actions' := hinjective.list_map (Json.listField_injective hactions)
  obtain rfl : point = point' := Point.toJson_injective (by simpa using hpoint)
  rfl

theorem point_mem : ("point", p.point.toJson) ∈
    listField "actions" (p.actions.map Action.toJson) ++ [("point", p.point.toJson)] := by
  simp

end Pipe

theorem Column.finite_toJson (c : Column) : c.toJson.Finite := by
  rw [toJson, Json.Finite, Json.finiteFields_append]
  exact ⟨Json.finite_textField, trivial, trivial⟩

namespace View

variable {v w : View}

theorem finite_toJson (v : View) : v.toJson.Finite := by
  rw [toJson, Json.Finite, Json.finiteFields_append]
  refine ⟨Json.finite_textField, Json.finite_listField ?_⟩
  rw [List.forall_mem_map]
  exact fun c _ => c.finite_toJson

theorem toJson_injective (hv : ∀ k ∈ v.references, k.Valid) (hw : ∀ k ∈ w.references, k.Valid)
    (h : v.toJson = w.toJson) : v = w := by
  have hdecoded := decoder_toJson .value hv
  rw [h, decoder_toJson .value hw] at hdecoded
  exact (Except.ok.inj hdecoded).symm

theorem keys_fields (v : View) : ((Column.textField "alias" v.aliasName ++
    Pipe.listField "columns" (v.columns.map Column.toJson)).map (·.1)).Sublist
      ["alias", "columns"] := by
  rw [List.map_append]
  exact Json.keys_textField.append Json.keys_listField

theorem columns_mem (h : v.validate = .ok ()) : "columns" ∈ (Column.textField "alias" v.aliasName ++
    Pipe.listField "columns" (v.columns.map Column.toJson)).map (·.1) := by
  have hne : v.columns ≠ [] := by
    intro hnil
    simp [validate, hnil] at h
  simp [Pipe.listField, hne]

end View

namespace Rule

variable {r s : Rule}

theorem finite_toJson (r : Rule) : r.toJson.Finite := by
  have hlist : ∀ {name : String} {ts : List String},
      Json.FiniteFields (Pipe.listField name (ts.map .str)) := by
    intro name ts
    refine Json.finite_listField ?_
    rw [List.forall_mem_map]
    exact fun _ _ => trivial
  have hkeys : r.pipes.map Key.toJson = (r.pipes.map Key.text).map .str := by simp [Key.toJson]
  rw [toJson, Json.Finite, hkeys]
  simp only [Json.finiteFields_append]
  exact ⟨⟨⟨⟨Json.finite_textField, Json.finite_textField⟩, Json.finite_flag⟩, hlist⟩, hlist⟩

theorem toJson_injective (hr : ∀ k ∈ r.pipes, k.Valid) (hs : ∀ k ∈ s.pipes, k.Valid)
    (h : r.toJson = s.toJson) : r = s := by
  have hsorted := r.toJson?_toJson
  rw [h, s.toJson?_toJson, Option.some.injEq] at hsorted
  have hdecoded := decoder_sortedJson .value hr
  rw [← hsorted, decoder_sortedJson .value hs] at hdecoded
  exact (Except.ok.inj hdecoded).symm

theorem keys_fields (r : Rule) : ((Column.textField "hostname" r.predicate.hostname
    ++ Column.textField "url_pattern" r.predicate.pattern
    ++ Point.flag "always_trigger" r.predicate.always
    ++ Pipe.listField "labels" (r.labels.map Json.str)
    ++ Pipe.listField "pipes" (r.pipes.map Key.toJson)).map (·.1)).Sublist
      ["hostname", "url_pattern", "always_trigger", "labels", "pipes"] := by
  simp only [List.map_append]
  exact (((Json.keys_textField.append Json.keys_textField).append Json.keys_flag).append
    Json.keys_listField).append Json.keys_listField

end Rule

/-! ## Specs -/

/-- Every number of the spec is finite, and every reference of a view or a rule has a valid name. -/
def Spec.WellFormed : Spec → Prop
  | .pipe p => ∀ a ∈ p.actions, a.Finite
  | .view v => ∀ k ∈ v.references, k.Valid
  | .rule r => ∀ k ∈ r.references, k.Valid

namespace Spec

variable {s t : Spec}

theorem finite_toJson (h : s.WellFormed) : s.toJson.Finite := by
  cases s with
  | pipe p => exact Pipe.finite_toJson h
  | view v => exact v.finite_toJson
  | rule r => exact r.finite_toJson

theorem pipe_ne_view {p : Pipe} {v : View} : p.toJson ≠ v.toJson := by
  intro h
  have hmem := List.mem_map_of_mem (f := Prod.fst) p.point_mem
  rw [Json.obj.inj h] at hmem
  simpa using v.keys_fields.subset hmem

theorem pipe_ne_rule {p : Pipe} {r : Rule} : p.toJson ≠ r.toJson := by
  intro h
  have hmem := List.mem_map_of_mem (f := Prod.fst) p.point_mem
  rw [Json.obj.inj h] at hmem
  simpa using r.keys_fields.subset hmem

theorem view_ne_rule {v : View} {r : Rule} (hv : v.validate = .ok ()) : v.toJson ≠ r.toJson := by
  intro h
  have hmem := View.columns_mem hv
  rw [Json.obj.inj h] at hmem
  simpa using r.keys_fields.subset hmem

/-- The encoding of a spec tells its kind and all it says. -/
theorem toJson_injective (hs : s.WellFormed) (ht : t.WellFormed) (hsv : s.validate = .ok ())
    (htv : t.validate = .ok ()) (h : s.toJson = t.toJson) : s = t := by
  cases s with
  | pipe p =>
    cases t with
    | pipe q => rw [Pipe.toJson_injective h]
    | view w => exact absurd h pipe_ne_view
    | rule x => exact absurd h pipe_ne_rule
  | view v =>
    cases t with
    | pipe q => exact absurd h.symm pipe_ne_view
    | view w => rw [View.toJson_injective hs ht h]
    | rule x => exact absurd h (view_ne_rule hsv)
  | rule r =>
    cases t with
    | pipe q => exact absurd h.symm pipe_ne_rule
    | view w => exact absurd h.symm (view_ne_rule htv)
    | rule x => rw [Rule.toJson_injective hs ht h]

theorem eq_of_compact (hs : s.WellFormed) (ht : t.WellFormed) (hsv : s.validate = .ok ())
    (htv : t.validate = .ok ()) (h : s.toJson.compact = t.toJson.compact) : s = t :=
  toJson_injective hs ht hsv htv (Json.compact_injective (finite_toJson hs) (finite_toJson ht) h)

end Spec

/-! ## What is keyed by a text -/

/-- Actions of finite numbers share no digest but by a collision. -/
theorem Action.collisionFree {actions : List Action} (hfinite : ∀ a ∈ actions, a.Finite)
    (hnone : ¬ ∃ a ∈ actions, ∃ b ∈ actions,
      Checksum.Sha1.Collide a.toJson.compact b.toJson.compact) :
    PlanGraph.CollisionFree actions := by
  intro a ha b hb hdigest
  by_contra hne
  refine hnone ⟨a, ha, b, hb, fun htext => hne ?_, hdigest⟩
  exact eq_of_compact (hfinite a ha) (hfinite b hb) htext

/-- Specs of one canonical text are one spec of one kind, and actions of one text are one action. So
a key denotes one spec, and a plan graph merges no two actions, but by a collision of SHA-1. -/
theorem canonical_text_identifies :
    (∀ s t : Spec, s.WellFormed → t.WellFormed → s.validate = .ok () → t.validate = .ok () →
      s.toJson.compact = t.toJson.compact → s.kind = t.kind ∧ s = t) ∧
    (∀ a b : Action, a.Finite → b.Finite → a.toJson.compact = b.toJson.compact → a = b) ∧
    (∀ q r : Resource, q.spec.WellFormed → r.spec.WellFormed → q.spec.validate = .ok () →
      r.spec.validate = .ok () → q.key = r.key → q.kind = r.kind ∧ q.spec = r.spec ∨
        Checksum.Sha1.Collide q.spec.toJson.compact r.spec.toJson.compact) ∧
    ∀ chains : List (List Action), (∀ c ∈ chains, ∀ a ∈ c, a.Finite) →
      PlanGraph.Unmerged chains ∨ ∃ a ∈ chains.flatten, ∃ b ∈ chains.flatten,
        Checksum.Sha1.Collide a.toJson.compact b.toJson.compact := by
  refine ⟨fun s t hs ht hsv htv h => ?_, fun a b ha hb h => Action.eq_of_compact ha hb h,
    fun q r hq hr hqv hrv h => ?_, fun chains hfinite => ?_⟩
  · obtain rfl := Spec.eq_of_compact hs ht hsv htv h
    exact ⟨rfl, rfl⟩
  · have hdigest : q.spec.digest = r.spec.digest := Option.some.inj (congrArg Key.digest h)
    by_cases htext : q.spec.toJson.compact = r.spec.toJson.compact
    · have hspec := Spec.eq_of_compact hq hr hqv hrv htext
      exact .inl ⟨congrArg Spec.kind hspec, hspec⟩
    · exact .inr ⟨htext, hdigest⟩
  · refine or_iff_not_imp_right.2 fun hnone => ?_
    refine PlanGraph.unmerged_of_collisionFree (Action.collisionFree (fun a ha => ?_) hnone)
    obtain ⟨c, hc, hac⟩ := List.mem_flatten.1 ha
    exact hfinite c hc a hac

/-- A pipe and a view that could have one name, and two chains that part after their first action. -/
theorem document_and_view_identified :
    let p : Spec := .pipe ⟨[.ofKind .document], {}⟩
    let v : Spec := .view ⟨none, [{ pipe := .bare "title" }]⟩
    let chains : List (List Action) := [[.ofKind .document], [.ofKind .document, .ofKind .field]]
    p.WellFormed ∧ v.WellFormed ∧ p.validate = .ok () ∧ v.validate = .ok () ∧
      p.toJson.compact ≠ v.toJson.compact ∧
      (Action.ofKind .document).toJson.compact ≠ (Action.ofKind .field).toJson.compact ∧
      (Resource.ofSpec "title" p).key ≠ (Resource.ofSpec "title" v).key ∧
      PlanGraph.Unmerged chains := by
  intro p v chains
  have hp : p.WellFormed := List.forall_mem_singleton.2 (Action.finite_ofKind .document)
  have hv : v.WellFormed := List.forall_mem_singleton.2 ⟨rfl, fun d hd => by cases hd⟩
  have hpv : p.validate = .ok () := rfl
  have hvv : v.validate = .ok () := by decide +kernel
  obtain ⟨hspecs, hactions, hkeys, hchains⟩ := canonical_text_identifies
  have hfinite : ∀ c ∈ chains, ∀ a ∈ c, a.Finite := by
    simp [chains, Action.finite_ofKind]
  refine ⟨hp, hv, hpv, hvv, fun h => ?_, fun h => ?_, fun h => ?_, ?_⟩
  · exact absurd (hspecs p v hp hv hpv hvv h).1 (by decide)
  · have heq := hactions _ _ (Action.finite_ofKind .document) (Action.finite_ofKind .field) h
    exact absurd (congrArg (Action.is · .document) heq) (by decide)
  · obtain ⟨hkind, -⟩ | hcollide := hkeys _ _ hp hv hpv hvv h
    · exact absurd hkind (by decide)
    · exact absurd hcollide (by decide +kernel)
  · exact (hchains chains hfinite).resolve_right (by decide +kernel)

end PagePipes
