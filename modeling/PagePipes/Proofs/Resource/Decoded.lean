import PagePipes.Proofs.Json.Nesting
import PagePipes.Proofs.Predicates
import PagePipes.Proofs.Resource.Read
import PagePipes.Proofs.Yaml.Reading
import PagePipes.Resource.Load

set_option autoImplicit false

/-!
# Resources that are read are as readers make them

Whatever a file says, a resource that is read from it can be written and read again: nothing in it
is nested too deeply, and a rule is normalized.
-/
namespace PagePipes

namespace Decoder

variable {σ α : Type} {P : σ → Prop} {n : Nat} {layout : Layout} {origin : Origin}
  {step : σ → String → Document → Except DecodeFault σ} {s t : σ} {d : Document}

theorem once_eq_ok {slot o : Option α} {name : String} {value : Except DecodeFault α}
    (h : once slot name value = .ok o) : ∃ a, value = .ok a ∧ o = some a := by
  unfold once at h
  split_ifs at h
  obtain ⟨a, ha, rfl⟩ := Result.map_eq_ok.1 h
  exact ⟨a, ha, rfl⟩

section Record

variable (hstep : ∀ s name d t, d.Shallow n → P s → step s name d = .ok t → P t)
include hstep

theorem objectFields_preserves {fields : List (Option String × Document)}
    (hfields : ∀ f ∈ fields, f.2.Shallow n) (hs : P s)
    (h : objectFields layout step s fields = .ok t) : P t := by
  induction fields generalizing s with
  | nil =>
    cases h
    exact hs
  | cons f fields ih =>
    obtain ⟨key, d⟩ := f
    obtain ⟨hd, hrest⟩ := List.forall_mem_cons.1 hfields
    cases key with
    | none => cases h
    | some name =>
      simp only [objectFields] at h
      split_ifs at h
      · obtain ⟨next, hnext, h⟩ := Result.bind_eq_ok.1 h
        exact ih hrest (hstep s name d next hd hs hnext) h
      · exact ih hrest hs h

theorem arrayFields_preserves {closed : Bool} {items : List Document}
    (hitems : ∀ d ∈ items, d.Shallow n) (hs : P s)
    (h : arrayFields origin closed step layout s items = .ok t) : P t := by
  induction layout generalizing s items with
  | nil =>
    cases items with
    | nil =>
      rw [arrayFields] at h
      split_ifs at h
      cases h
      exact hs
    | cons d items => cases h
  | cons entry layout ih =>
    obtain ⟨name, optional⟩ := entry
    cases items with
    | nil =>
      rw [arrayFields] at h
      split_ifs at h
      exact ih hitems hs h
    | cons d items =>
      obtain ⟨hd, hrest⟩ := List.forall_mem_cons.1 hitems
      obtain ⟨next, hnext, h⟩ := Result.bind_eq_ok.1 h
      exact ih hrest (hstep s name d next hd hs hnext) h

/-- What reading a field preserves holds of a record, whichever form it is written in. -/
theorem record_preserves (hd : d.Shallow (n + 1)) (hs : P s)
    (h : record origin layout step s d = .ok t) : P t := by
  cases d with
  | object fields closed =>
    obtain ⟨next, hnext, h⟩ := Result.bind_eq_ok.1 h
    split_ifs at h
    cases h
    exact objectFields_preserves hstep hd hs hnext
  | array items closed => exact arrayFields_preserves hstep hd hs h
  | _ => cases h

end Record

theorem decoded_of_ofText {decoder : Origin → Decoder α} {text : String} {a : α}
    (h : ofText decoder text = .ok a) : decoder .text (Document.read text).1 = .ok a := by
  unfold ofText at h
  generalize Document.read text = r at h ⊢
  obtain ⟨d, ended⟩ := r
  dsimp only at h ⊢
  split at h
  · next b hb =>
    split_ifs at h
    cases h
    exact hb
  · split_ifs at h

theorem decoded_of_ofValue {decoder : Origin → Decoder α} {j : Json} {a : α}
    (h : ofValue decoder j = .ok a) : decoder .value (.ofJson j) = .ok a := by
  unfold ofValue at h
  split at h
  · next hdecoded =>
    cases h
    exact hdecoded
  · cases h

theorem forall_of_list {Q : α → Prop} {inner : Decoder α} {xs : List α} (hd : d.Shallow (n + 1))
    (hinner : ∀ d a, d.Shallow n → inner d = .ok a → Q a) (h : list inner d = .ok xs) :
    ∀ a ∈ xs, Q a := by
  cases d with
  | array items closed =>
    obtain ⟨ys, hys, h⟩ := Result.bind_eq_ok.1 h
    split_ifs at h
    cases h
    intro a ha
    obtain ⟨d, hmem, hda⟩ := Result.exists_of_forall₂ (Result.mapM_eq_ok.1 hys).flip ha
    exact hinner d a (hd d hmem) hda
  | _ => cases h

end Decoder

/-! ## Pipes -/

namespace Action

theorem mem_of_ofFields {fields : List (String × Json)} {name : String} {v : Json}
    (h : (ofFields fields).get? name = some v) : (name, v) ∈ fields := by
  unfold ofFields get? at h
  induction fields using List.reverseRecOn with
  | nil => simp at h
  | append_singleton fields f ih =>
    rw [List.foldl_append, List.foldl_cons, List.foldl_nil, Std.ExtTreeMap.getElem?_insert] at h
    split_ifs at h with hname
    · cases h
      obtain rfl := Std.LawfulEqCmp.eq_of_compare hname
      exact List.mem_append_right _ (List.mem_singleton_self f)
    · exact List.mem_append_left _ (ih h)

theorem within_of_decoder {d : Document} {a : Action} {n : Nat} (hd : d.Shallow (n + 1))
    (h : decoder d = .ok a) : ∀ name v, a.get? name = some v → v.Within n := by
  cases d with
  | object fields closed =>
    obtain ⟨arguments, harguments, h⟩ := Result.bind_eq_ok.1 h
    split_ifs at h
    cases h
    intro name v hv
    obtain ⟨f, hmem, hf⟩ := Result.exists_of_forall₂ (Result.mapM_eq_ok.1 harguments).flip
      (mem_of_ofFields hv)
    split at hf
    · next j _ hj =>
      cases hf
      exact Document.within_of_toJson? (hd f hmem) hj
    · cases hf
  | _ => cases h

end Action

theorem Pipe.within_of_decoder {origin : Origin} {d : Document} {p : Pipe} {n : Nat}
    (hd : d.Shallow (n + 3)) (h : decoder origin d = .ok p) :
    ∀ a ∈ p.actions, ∀ name v, a.get? name = some v → v.Within n := by
  obtain ⟨s, hs, h⟩ := Result.bind_eq_ok.1 h
  cases h
  have hactions := Decoder.record_preserves (P := fun s : Draft =>
    ∀ a ∈ s.actions.getD [], ∀ name v, a.get? name = some v → v.Within n)
    (fun s name d t hd hs h => ?_) hd (by simp) hs
  · exact hactions
  · split at h
    · obtain ⟨o, ho, h⟩ := Result.bind_eq_ok.1 h
      cases h
      obtain ⟨as, has, rfl⟩ := Decoder.once_eq_ok ho
      exact Decoder.forall_of_list hd (fun _ _ => Action.within_of_decoder) has
    · obtain ⟨o, -, h⟩ := Result.bind_eq_ok.1 h
      cases h
      exact hs

/-! ## Views and rules -/

theorem Key.valid_of_parse {s : String} {k : Key} (h : parse s = .ok k) : k.Valid := by
  unfold parse at h
  obtain ⟨⟨⟩, hname, h⟩ := Result.bind_eq_ok.1 h
  split at h
  · cases Result.pure_eq_ok.1 h
    exact ⟨hname, fun d hd => by cases hd⟩
  · obtain ⟨⟨⟩, hdigest, h⟩ := Result.bind_eq_ok.1 h
    cases Result.pure_eq_ok.1 h
    refine ⟨hname, fun d hd => ?_⟩
    cases hd
    exact hdigest

theorem Key.valid_of_decoder {d : Document} {k : Key} (h : decoder d = .ok k) : k.Valid := by
  obtain ⟨s, -, h⟩ := Result.bind_eq_ok.1 h
  split at h
  · next hk =>
    cases Result.pure_eq_ok.1 h
    exact valid_of_parse hk
  · cases h

theorem Column.valid_of_decoder {origin : Origin} {d : Document} {c : Column} {n : Nat}
    (hd : d.Shallow (n + 1)) (h : decoder origin d = .ok c) : c.pipe.Valid := by
  obtain ⟨s, hs, h⟩ := Result.bind_eq_ok.1 h
  obtain ⟨k, hk, h⟩ := Result.bind_eq_ok.1 h
  cases h
  have hpipe := Decoder.record_preserves (P := fun s : Draft => ∀ k, s.pipe = some k → k.Valid)
    (fun s name d t _ hs h => ?_) hd (by simp) hs
  · unfold Decoder.need at hk
    split at hk
    · next hpiped =>
      cases hk
      exact hpipe _ hpiped
    · cases hk
  · split at h
    · obtain ⟨o, -, h⟩ := Result.bind_eq_ok.1 h
      cases h
      exact hs
    · obtain ⟨o, ho, h⟩ := Result.bind_eq_ok.1 h
      cases h
      obtain ⟨k, hk, rfl⟩ := Decoder.once_eq_ok ho
      rintro _ ⟨⟩
      exact Key.valid_of_decoder hk

theorem View.valid_of_decoder {origin : Origin} {d : Document} {v : View} {n : Nat}
    (hd : d.Shallow (n + 3)) (h : decoder origin d = .ok v) : ∀ k ∈ v.references, k.Valid := by
  obtain ⟨s, hs, h⟩ := Result.bind_eq_ok.1 h
  cases h
  have hcolumns := Decoder.record_preserves (P := fun s : Draft =>
    ∀ c ∈ s.columns.getD [], c.pipe.Valid) (fun s name d t hd hs h => ?_) hd (by simp) hs
  · exact List.forall_mem_map.2 hcolumns
  · split at h
    · obtain ⟨o, -, h⟩ := Result.bind_eq_ok.1 h
      cases h
      exact hs
    · obtain ⟨o, ho, h⟩ := Result.bind_eq_ok.1 h
      cases h
      obtain ⟨cs, hcs, rfl⟩ := Decoder.once_eq_ok ho
      exact Decoder.forall_of_list hd (fun _ _ => Column.valid_of_decoder) hcs

theorem Rule.valid_of_decoder {origin : Origin} {d : Document} {x : Rule} {n : Nat}
    (hd : d.Shallow (n + 2)) (h : decoder origin d = .ok x) : ∀ k ∈ x.references, k.Valid := by
  obtain ⟨s, hs, h⟩ := Result.bind_eq_ok.1 h
  cases h
  have hpipes := Decoder.record_preserves (P := fun s : Draft => ∀ k ∈ s.pipes.getD [], k.Valid)
    (fun s name d t hd hs h => ?_) hd (by simp) hs
  · exact hpipes
  · split at h
    case h_5 =>
      obtain ⟨o, ho, h⟩ := Result.bind_eq_ok.1 h
      cases h
      obtain ⟨ks, hks, rfl⟩ := Decoder.once_eq_ok ho
      exact Decoder.forall_of_list hd (fun _ _ _ => Key.valid_of_decoder) hks
    all_goals
      obtain ⟨o, -, h⟩ := Result.bind_eq_ok.1 h
      cases h
      exact hs

/-! ## Envelopes -/

namespace Envelope

theorem within_of_decoder {origin : Origin} {d : Document} {e : Envelope} {n : Nat}
    (hd : d.Shallow (n + 1)) (h : decoder origin d = .ok e) : e.spec.Within n := by
  obtain ⟨s, hs, h⟩ := Result.bind_eq_ok.1 h
  obtain ⟨kind, -, h⟩ := Result.bind_eq_ok.1 h
  obtain ⟨metadata, -, h⟩ := Result.bind_eq_ok.1 h
  cases h
  have hspec := Decoder.record_preserves (P := fun s : Draft => (s.spec.getD .null).Within n)
    (s := {}) (fun s name d t hd hs h => ?_) hd (.plain trivial trivial rfl) hs
  · exact hspec
  · split at h
    case h_4 =>
      obtain ⟨o, ho, h⟩ := Result.bind_eq_ok.1 h
      cases h
      obtain ⟨j, hj, rfl⟩ := Decoder.once_eq_ok ho
      unfold Decoder.json at hj
      split at hj
      · next hjson =>
        cases hj
        exact Document.within_of_toJson? hd hjson
      · cases hj
    all_goals
      obtain ⟨o, -, h⟩ := Result.bind_eq_ok.1 h
      cases h
      exact hs

/-- A spec that is read out of a value is as a reader makes it, and its own value is not nested more
deeply. -/
theorem decoded_of_readSpec {kind : Kind} {j : Json} {s : Spec} {n : Nat} (hj : j.Within (n + 3))
    (hn : n ≤ 124) (h : readSpec kind j = .ok s) :
    s.AsRead ∧ s.Readable ∧ s.toJson.depth ≤ n + 3 := by
  have hshallow := Document.shallow_ofJson hj
  cases kind with
  | pipe =>
    obtain ⟨p, hp, rfl⟩ := Result.map_eq_ok.1 h
    have hwithin := Pipe.within_of_decoder hshallow (Decoder.decoded_of_ofValue hp)
    have hreadable : p.Readable := fun a ha name v hv =>
      have hv := hwithin a ha name v hv
      ⟨hv.readable, hv.sorted, hv.depth.trans hn⟩
    exact ⟨hreadable, hreadable, Pipe.depth_le fun a ha name v hv => (hwithin a ha name v hv).depth⟩
  | view =>
    obtain ⟨v, hv, rfl⟩ := Result.map_eq_ok.1 h
    exact ⟨trivial, View.valid_of_decoder hshallow (Decoder.decoded_of_ofValue hv),
      v.depth_toJson.trans (by omega)⟩
  | rule =>
    obtain ⟨x, hx, rfl⟩ := Result.map_eq_ok.1 h
    have hkeys : ∀ k ∈ x.references, k.Valid :=
      Rule.valid_of_decoder hshallow (Decoder.decoded_of_ofValue hx)
    exact ⟨x.predicate.normalized_normalized, hkeys, x.normalized.depth_toJson.trans (by omega)⟩

end Envelope

/-- A resource as a reader makes it out of a value with so many containers inside one another. -/
structure Resource.Decoded (n : Nat) (r : Resource) : Prop where
  asRead : r.AsRead
  readable : r.spec.Readable
  depth : r.spec.toJson.depth ≤ n
  lowered : Key.lower r.name = r.name

theorem Envelope.decoded_of_toResource {e : Envelope} {r : Resource} {n : Nat}
    (he : e.spec.Within (n + 3)) (hn : n ≤ 124) (h : e.toResource = .ok r) : r.Decoded (n + 3) := by
  obtain ⟨kind, -, h⟩ := Result.bind_eq_ok.1 h
  obtain ⟨spec, hspec, h⟩ := Result.bind_eq_ok.1 h
  cases h
  obtain ⟨hread, hreadable, hdepth⟩ := decoded_of_readSpec (n := n) (by
    split_ifs
    · exact ⟨trivial, ⟨.nil, trivial⟩, by simp [Json.depth, Json.depthFields]⟩
    · exact he) hn hspec
  exact ⟨hread, hreadable, hdepth, Key.lower_lower _⟩

theorem Resource.decoded_of_ofJsonText {text : String} {r : Resource}
    (h : ofJsonText text = .ok r) : r.Decoded 126 := by
  obtain ⟨e, he, h⟩ := Result.bind_eq_ok.1 h
  have hspec := Envelope.within_of_decoder (n := 126) (Document.shallow_of_read text)
    (Decoder.decoded_of_ofText he)
  exact Envelope.decoded_of_toResource hspec (by decide) h

/-- Whatever the text of a row says, the rest of the resource that is read is that of the row. -/
theorem ResourceRow.metadata_of_resource {row : ResourceRow} {r : Resource} (h : row.resource = .ok r) :
    r.version = row.version ∧ r.metadata = ⟨Key.lower row.key.name, row.description, row.labels⟩ := by
  obtain ⟨j, hj, h⟩ := Result.bind_eq_ok.1 h
  have hwithin : j.Within (Document.depthLimit - 1) := by
    have hdecoded := Decoder.decoded_of_ofText hj
    unfold Decoder.json at hdecoded
    split at hdecoded
    · next hvalue =>
      cases hdecoded
      exact Document.within_of_toJson? (Document.shallow_of_read row.spec) hvalue
    · cases hdecoded
  have hvalue := Document.toJson?_ofJson (Json.sorted_reread hwithin.sorted)
  obtain ⟨e, he, h⟩ := Result.bind_eq_ok.1 h
  obtain ⟨-, rfl⟩ := (row.writes_metadataJson.ofText_writtenJson hwithin.readable hvalue).1 he
  obtain ⟨kind, -, h⟩ := Result.bind_eq_ok.1 h
  obtain ⟨spec, -, h⟩ := Result.bind_eq_ok.1 h
  cases Result.pure_eq_ok.1 h
  exact ⟨rfl, rfl⟩

/-! ## Files -/

theorem Envelope.gives_read {d : Yaml.Document} :
    Yaml.Reading.Gives (read d) fun e => e.spec.Within 127 := by
  unfold read
  refine Yaml.Reading.Gives.bind (P := fun s : Draft => (s.spec.getD .null).Within 127)
    (Yaml.Reading.gives_record (fun s name here n hs => ?_) (.plain trivial trivial rfl))
    fun s hs => ?_
  · split
    case h_4 =>
      refine (Yaml.Reading.gives_once Yaml.Reading.gives_json).bind fun o ho => ?_
      obtain ⟨j, rfl, hj⟩ := ho
      exact .pure hj
    all_goals exact Yaml.Reading.Gives.trivial.bind fun o _ => .pure hs
  · exact Yaml.Reading.Gives.trivial.bind fun kind _ =>
      Yaml.Reading.Gives.trivial.bind fun metadata _ => .pure hs

theorem Resource.decoded_of_ofYamlText {text : String} {r : Resource}
    (h : ofYamlText text = .ok r) : r.Decoded 127 := by
  unfold ofYamlText at h
  split at h
  · cases h
  · dsimp only at h
    split at h
    · next r' hr =>
      cases h
      unfold ofYaml at hr
      split at hr
      · next e k he =>
        exact Envelope.decoded_of_toResource (Envelope.gives_read 0 e k he) (by decide) hr
      · cases hr
    · split_ifs at h

/-- Every file format gives resources as readers make them. -/
theorem Resource.asRead_of_ofFormat? {extension text : String} {read : String → Result Resource}
    {r : Resource} (hformat : ofFormat? extension = some read) (h : read text = .ok r) :
    r.AsRead := by
  unfold ofFormat? at hformat
  split at hformat <;> cases hformat
  · exact (decoded_of_ofJsonText h).asRead
  · exact (decoded_of_ofYamlText h).asRead
  · exact (decoded_of_ofYamlText h).asRead

end PagePipes
