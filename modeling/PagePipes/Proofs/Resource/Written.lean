import PagePipes.Proofs.Json.Nesting
import PagePipes.Proofs.Pipe.Written
import PagePipes.Proofs.WrittenKeys
import PagePipes.Database.Resources

set_option autoImplicit false

/-!
# Written resources are read

Views and rules are read back as they were written. A stored resource is read out of its row in two
rounds: the text of its spec as a value, and that value within the text of an envelope. It comes
back with the same references, a rule normalized.
-/
namespace PagePipes

namespace Key

variable {k : Key}

theorem parse_text (h : k.Valid) : parse k.text = .ok k := by
  obtain ⟨name, digest⟩ := k
  obtain ⟨hname, hdigest⟩ := h
  have hat : ∀ c ∈ name.toList, (decide (c ≠ '@')) = true := by
    obtain ⟨first, rest, hn, hfirst, hrest⟩ := validateName_eq_ok.1 hname
    rw [hn]
    intro c hc
    rw [decide_eq_true_eq]
    rintro rfl
    obtain rfl | hc := List.mem_cons.1 hc
    · exact absurd hfirst (by decide)
    · exact absurd (hrest _ hc) (by decide)
  unfold parse text
  cases digest with
  | none =>
    have hsplit : splitAt name = (name, none) := by
      simp only [splitAt, List.takeWhile_eq_self_iff.2 hat, List.dropWhile_eq_nil_iff.2 hat,
        String.ofList_toList]
    simp only [hsplit, lower_of_validName hname, hname, Result.ok_bind]
    rfl
  | some d =>
    have hd := hdigest d rfl
    have hsplit : splitAt (name ++ "@" ++ d) = (name, some d) := by
      have htext : (name ++ "@" ++ d).toList = name.toList ++ '@' :: d.toList := by simp
      simp only [splitAt, htext, List.takeWhile_append_of_pos hat, List.dropWhile_append_of_pos hat]
      simp
    simp only [hsplit, lower_of_validName hname, hname, lower_of_validDigest hd, hd, Result.ok_bind]
    rfl

theorem decoder_toJson (h : k.Valid) : decoder (.ofJson k.toJson) = .ok k := by
  simp only [toJson, Document.ofJson, decoder, Decoder.string, Result.ok_bind, parse_text h]
  rfl

end Key

namespace Column

variable {c : Column}

theorem decoder_toJson (origin : Origin) (h : c.pipe.Valid) :
    decoder origin (.ofJson c.toJson) = .ok c := by
  have hpipe := Key.decoder_toJson h
  rw [Key.toJson] at hpipe
  obtain ⟨aliasName, pipe⟩ := c
  simp only [toJson, Document.ofJson, decoder, Decoder.record, Document.ofFields_append,
    Decoder.objectFields_append]
  rw [@Decoder.objectFields_textField Draft _ _ {} { aliasName := aliasName.map some } _ aliasName rfl
      (by rintro rfl; rfl) (by rintro t rfl; rfl), Result.ok_bind,
    @Decoder.objectFields_singleton Draft _ _ _ { aliasName := aliasName.map some, pipe := some pipe }
      _ (.str pipe.text) rfl (by simp only [Decoder.once, hpipe]; rfl), Result.ok_bind]
  cases aliasName <;> rfl

theorem reread_toJson (c : Column) : c.toJson.reread = c.toJson := by simp [toJson]

theorem readable_toJson (c : Column) : c.toJson.Readable := by
  rw [toJson, Json.Readable, Json.readableFields_iff]
  intro f hf
  obtain hf | hf := List.mem_append.1 hf
  · obtain ⟨t, rfl⟩ := Json.mem_textField hf
    trivial
  · rw [List.mem_singleton.1 hf]
    trivial

theorem sorted_toJson (c : Column) : c.toJson.Sorted := by
  have hkeys : ["alias", "pipe"].Pairwise (· < ·) := by decide +kernel
  constructor
  · refine Json.pairwise_of_keys ?_ hkeys
    rw [List.map_append]
    exact Json.keys_textField.append (.refl _)
  · rw [Json.sortedFields_iff]
    intro f hf
    obtain hf | hf := List.mem_append.1 hf
    · obtain ⟨t, rfl⟩ := Json.mem_textField hf
      trivial
    · rw [List.mem_singleton.1 hf]
      trivial

theorem depth_toJson (c : Column) : c.toJson.depth ≤ 1 := by
  refine Nat.add_le_add_right (Json.depthFields_le.2 fun f hf => ?_) 1
  obtain hf | hf := List.mem_append.1 hf
  · obtain ⟨t, rfl⟩ := Json.mem_textField hf
    exact Nat.le_refl 0
  · rw [List.mem_singleton.1 hf]
    exact Nat.le_refl 0

end Column

namespace View

variable {v : View}

theorem mem_fields {f : String × Json} (h : f ∈ Column.textField "alias" v.aliasName
    ++ Pipe.listField "columns" (v.columns.map Column.toJson)) :
    (∃ t, f = ("alias", .str t)) ∨ f = ("columns", .arr (v.columns.map Column.toJson)) :=
  (List.mem_append.1 h).imp Json.mem_textField Json.mem_listField

theorem reread_toJson (v : View) : v.toJson.reread = v.toJson := by
  simp [toJson, Function.comp_def, Column.reread_toJson]

theorem readable_toJson (v : View) : v.toJson.Readable := by
  rw [toJson, Json.Readable, Json.readableFields_iff]
  intro f hf
  obtain ⟨t, rfl⟩ | rfl := mem_fields hf
  · trivial
  · rw [Json.Readable, Json.readableItems_iff, List.forall_mem_map]
    exact fun c _ => c.readable_toJson

theorem sorted_toJson (v : View) : v.toJson.Sorted := by
  have hkeys : ["alias", "columns"].Pairwise (· < ·) := by decide +kernel
  constructor
  · refine Json.pairwise_of_keys ?_ hkeys
    rw [List.map_append]
    exact Json.keys_textField.append Json.keys_listField
  · rw [Json.sortedFields_iff]
    intro f hf
    obtain ⟨t, rfl⟩ | rfl := mem_fields hf
    · trivial
    · rw [Json.Sorted, Json.sortedItems_iff, List.forall_mem_map]
      exact fun c _ => c.sorted_toJson

theorem depth_toJson (v : View) : v.toJson.depth ≤ 3 := by
  refine Nat.add_le_add_right (Json.depthFields_le.2 fun f hf => ?_) 1
  obtain ⟨t, rfl⟩ | rfl := mem_fields hf
  · exact Nat.zero_le 2
  · refine Nat.add_le_add_right (Json.depthItems_le.2 ?_) 1
    rw [List.forall_mem_map]
    exact fun c _ => c.depth_toJson

theorem decoder_toJson (origin : Origin) (h : ∀ k ∈ v.references, k.Valid) :
    decoder origin (.ofJson v.toJson) = .ok v := by
  have hcolumns := Decoder.list_ofItems fun c hc =>
    Column.decoder_toJson origin (h c.pipe (List.mem_map_of_mem hc))
  obtain ⟨aliasName, columns⟩ := v
  obtain ⟨columns', hcolumns'⟩ : ∃ o, o = if columns = [] then none else some columns := ⟨_, rfl⟩
  simp only [toJson, Document.ofJson, decoder, Decoder.record, Document.ofFields_append,
    Decoder.objectFields_append]
  rw [@Decoder.objectFields_textField Draft _ _ {} { aliasName := aliasName.map some } _ aliasName rfl
      (by rintro rfl; rfl) (by rintro t rfl; rfl), Result.ok_bind,
    @Decoder.objectFields_listField Draft _ _ _ { aliasName := aliasName.map some, columns := columns' }
      _ _ rfl (by simp_all) (by
        intro hne
        simp only [Decoder.once, hcolumns, Option.isSome_none, Bool.false_eq_true, ↓reduceIte]
        simp_all [Except.map]), Result.ok_bind]
  rw [hcolumns']
  cases aliasName <;> cases columns <;> rfl

theorem ofText_compact (h : ∀ k ∈ v.references, k.Valid) :
    Decoder.ofText decoder v.toJson.compact = .ok v := by
  refine Decoder.ofText_compact v.readable_toJson (v.depth_toJson.trans_lt (by decide)) ?_
  rw [reread_toJson]
  exact decoder_toJson .text h

end View

namespace Rule

variable {r : Rule}

/-- The encoding of a rule with its fields in order. -/
def sortedJson (r : Rule) : Json :=
  .obj (Point.flag "always_trigger" r.predicate.always
    ++ Column.textField "hostname" r.predicate.hostname
    ++ Pipe.listField "labels" (r.labels.map Json.str)
    ++ Pipe.listField "pipes" (r.pipes.map Key.toJson)
    ++ Column.textField "url_pattern" r.predicate.pattern)

theorem perm_fields (r : Rule) :
    (Column.textField "hostname" r.predicate.hostname
      ++ Column.textField "url_pattern" r.predicate.pattern
      ++ Point.flag "always_trigger" r.predicate.always
      ++ Pipe.listField "labels" (r.labels.map Json.str)
      ++ Pipe.listField "pipes" (r.pipes.map Key.toJson)).Perm
    (Point.flag "always_trigger" r.predicate.always
      ++ Column.textField "hostname" r.predicate.hostname
      ++ Pipe.listField "labels" (r.labels.map Json.str)
      ++ Pipe.listField "pipes" (r.pipes.map Key.toJson)
      ++ Column.textField "url_pattern" r.predicate.pattern) := by
  refine List.perm_iff_count.2 fun f => ?_
  simp only [List.count_append]
  omega

theorem mem_fields {f : String × Json} (h : f ∈ Point.flag "always_trigger" r.predicate.always
    ++ Column.textField "hostname" r.predicate.hostname
    ++ Pipe.listField "labels" (r.labels.map Json.str)
    ++ Pipe.listField "pipes" (r.pipes.map Key.toJson)
    ++ Column.textField "url_pattern" r.predicate.pattern) :
    f.2.Readable ∧ f.2.Sorted ∧ f.2.depth ≤ 1 := by
  have htext : ∀ {name : String} {value : Option String}, f ∈ Column.textField name value →
      f.2.Readable ∧ f.2.Sorted ∧ f.2.depth ≤ 1 := by
    intro name value hf
    obtain ⟨t, rfl⟩ := Json.mem_textField hf
    exact ⟨trivial, trivial, Nat.zero_le 1⟩
  have hlist : ∀ {name : String} {ts : List String}, f ∈ Pipe.listField name (ts.map .str) →
      f.2.Readable ∧ f.2.Sorted ∧ f.2.depth ≤ 1 := by
    intro name ts hf
    rw [Json.mem_listField hf, Json.Readable, Json.Sorted, Json.readableItems_iff,
      Json.sortedItems_iff, List.forall_mem_map, List.forall_mem_map]
    refine ⟨fun _ _ => trivial, fun _ _ => trivial, Nat.add_le_add_right ?_ 1⟩
    rw [Json.depthItems_le, List.forall_mem_map]
    exact fun _ _ => Nat.le_refl 0
  have hkeys : r.pipes.map Key.toJson = (r.pipes.map Key.text).map .str := by simp [Key.toJson]
  simp only [List.mem_append] at h
  obtain (((hf | hf) | hf) | hf) | hf := h
  · rw [Json.mem_flag hf]
    exact ⟨trivial, trivial, Nat.zero_le 1⟩
  · exact htext hf
  · exact hlist hf
  · exact hlist (hkeys ▸ hf)
  · exact htext hf

theorem reread_toJson (r : Rule) : r.toJson.reread = r.toJson := by
  simp [toJson, Function.comp_def, Key.toJson]
  rfl

theorem readable_toJson (r : Rule) : r.toJson.Readable := by
  rw [toJson, Json.Readable, Json.readableFields_iff]
  exact fun f hf => (mem_fields (r.perm_fields.mem_iff.1 hf)).1

theorem depth_toJson (r : Rule) : r.toJson.depth ≤ 2 :=
  Nat.add_le_add_right
    (Json.depthFields_le.2 fun _ hf => (mem_fields (r.perm_fields.mem_iff.1 hf)).2.2) 1

theorem reread_sortedJson (r : Rule) : r.sortedJson.reread = r.sortedJson := by
  simp [sortedJson, Function.comp_def, Key.toJson]
  rfl

theorem readable_sortedJson (r : Rule) : r.sortedJson.Readable := by
  rw [sortedJson, Json.Readable, Json.readableFields_iff]
  exact fun f hf => (mem_fields hf).1

theorem depth_sortedJson (r : Rule) : r.sortedJson.depth ≤ 2 :=
  Nat.add_le_add_right (Json.depthFields_le.2 fun _ hf => (mem_fields hf).2.2) 1

theorem sorted_sortedJson (r : Rule) : r.sortedJson.Sorted := by
  have hkeys : ["always_trigger", "hostname", "labels", "pipes", "url_pattern"].Pairwise
      (· < ·) := by decide +kernel
  constructor
  · refine Json.pairwise_of_keys ?_ hkeys
    simp only [List.map_append]
    exact (((Json.keys_flag.append Json.keys_textField).append Json.keys_listField).append
      Json.keys_listField).append Json.keys_textField
  · exact Json.sortedFields_iff.2 fun f hf => (mem_fields hf).2.1

/-- A rule writes its fields in another order than values keep them. -/
theorem toJson?_toJson (r : Rule) : (Document.ofJson r.toJson).toJson? = some r.sortedJson := by
  rw [toJson, Document.toJson?_obj fun f hf => (mem_fields (r.perm_fields.mem_iff.1 hf)).2.1,
    Json.sortFields_eq_of_perm r.perm_fields r.sorted_sortedJson.1]
  rfl

theorem decoder_sortedJson (origin : Origin) (h : ∀ k ∈ r.pipes, k.Valid) :
    decoder origin (.ofJson r.sortedJson) = .ok r := by
  have hpipes := Decoder.list_ofItems fun k hk => Key.decoder_toJson (h k hk)
  have hlabels : Decoder.list Decoder.string (.array (Document.ofItems (r.labels.map .str)) true) =
      .ok r.labels := Decoder.list_ofItems fun _ _ => rfl
  obtain ⟨⟨hostname, pattern, always⟩, labels, pipes⟩ := r
  simp only [sortedJson, Document.ofJson, decoder, Decoder.record, Document.ofFields_append,
    Decoder.objectFields_append]
  obtain ⟨flag, hflag⟩ : ∃ flag, flag = if always then some true else none := ⟨_, rfl⟩
  obtain ⟨labels', hlabels'⟩ : ∃ o, o = if labels = [] then none else some labels := ⟨_, rfl⟩
  obtain ⟨pipes', hpipes'⟩ : ∃ o, o = if pipes = [] then none else some pipes := ⟨_, rfl⟩
  -- the fields are read one after the other, in the order of their names
  rw [@Decoder.objectFields_flag Draft _ _ {} { always := flag } _ always rfl
      (by simp_all) (by rintro rfl; rw [hflag]; rfl), Result.ok_bind,
    @Decoder.objectFields_textField Draft _ _ _ { always := flag, hostname := hostname.map some }
      _ hostname rfl (by rintro rfl; rfl) (by rintro t rfl; rfl), Result.ok_bind,
    @Decoder.objectFields_listField Draft _ _ _
      { always := flag, hostname := hostname.map some, labels := labels' }
      _ _ rfl (by simp_all) (by
        intro hne
        simp only [Decoder.once, hlabels, Option.isSome_none, Bool.false_eq_true, ↓reduceIte]
        simp_all [Except.map]), Result.ok_bind,
    @Decoder.objectFields_listField Draft _ _ _
      { always := flag, hostname := hostname.map some, labels := labels', pipes := pipes' }
      _ _ rfl (by simp_all) (by
        intro hne
        simp only [Decoder.once, hpipes, Option.isSome_none, Bool.false_eq_true, ↓reduceIte]
        simp_all [Except.map]), Result.ok_bind,
    @Decoder.objectFields_textField Draft _ _ _
      { always := flag, hostname := hostname.map some, labels := labels', pipes := pipes',
        pattern := pattern.map some }
      _ pattern rfl (by rintro rfl; rfl) (by rintro t rfl; rfl), Result.ok_bind]
  rw [hflag, hlabels', hpipes']
  cases always <;> cases hostname <;> cases labels <;> cases pipes <;> cases pattern <;> rfl

end Rule

/-! ## Specs -/

namespace Envelope

theorem readSpec_pipe {p : Pipe} (h : p.Readable) : readSpec .pipe p.toJson = .ok (.pipe p) := by
  rw [readSpec, Decoder.ofValue_eq_ok (Pipe.decoder_toJson .value h)]
  rfl

theorem readSpec_view {v : View} (h : ∀ k ∈ v.references, k.Valid) :
    readSpec .view v.toJson = .ok (.view v) := by
  rw [readSpec, Decoder.ofValue_eq_ok (View.decoder_toJson .value h)]
  rfl

theorem readSpec_rule {r : Rule} (h : ∀ k ∈ r.pipes, k.Valid) :
    readSpec .rule r.sortedJson = .ok (.rule r.normalized) := by
  rw [readSpec, Decoder.ofValue_eq_ok (Rule.decoder_sortedJson .value h)]
  rfl

end Envelope

/-- A spec whose text can be read. Of a view or a rule this asks only that its references can be
written and read. -/
def Spec.Readable : Spec → Prop
  | .pipe p => p.Readable
  | .view v => ∀ k ∈ v.references, k.Valid
  | .rule r => ∀ k ∈ r.references, k.Valid

namespace Spec

/-- The value that the text of a spec stands for. -/
def valueJson : Spec → Json
  | .pipe p => p.toJson.reread
  | .view v => v.toJson
  | .rule r => r.sortedJson

/-- What is read out of the text of a resource row. Its spec is written and read twice, and a rule is
normalized. -/
def reread : Spec → Spec
  | .pipe p => .pipe p.reread.reread
  | .view v => .view v
  | .rule r => .rule r.normalized

variable {s : Spec}

theorem readable_valueJson (h : s.Readable) :
    s.valueJson.Readable ∧ s.valueJson.Sorted ∧ s.valueJson.depth ≤ 127 := by
  cases s with
  | pipe p =>
    refine ⟨Json.readable_reread (p.readable_toJson h), Json.sorted_reread (p.sorted_toJson h), ?_⟩
    rw [valueJson, Json.depth_reread]
    exact p.depth_toJson h
  | view v => exact ⟨v.readable_toJson, v.sorted_toJson, v.depth_toJson.trans (by decide)⟩
  | rule r => exact ⟨r.readable_sortedJson, r.sorted_sortedJson, r.depth_sortedJson.trans (by decide)⟩

theorem toJson?_toJson (h : s.Readable) :
    (Document.ofJson s.toJson.reread).toJson? = some s.valueJson := by
  cases s with
  | pipe p => exact Document.toJson?_ofJson (Json.sorted_reread (p.sorted_toJson h))
  | view v =>
    rw [toJson, v.reread_toJson]
    exact Document.toJson?_ofJson v.sorted_toJson
  | rule r =>
    rw [toJson, r.reread_toJson]
    exact r.toJson?_toJson

theorem readable_toJson (h : s.Readable) : s.toJson.Readable ∧ s.toJson.depth ≤ 127 := by
  cases s with
  | pipe p => exact ⟨p.readable_toJson h, p.depth_toJson h⟩
  | view v => exact ⟨v.readable_toJson, v.depth_toJson.trans (by decide)⟩
  | rule r => exact ⟨r.readable_toJson, r.depth_toJson.trans (by decide)⟩

theorem readJson (h : s.Readable) :
    Decoder.ofText (fun _ => Decoder.json) s.toJson.compact = .ok s.valueJson := by
  obtain ⟨hreadable, hdepth⟩ := s.readable_toJson h
  refine Decoder.ofText_compact hreadable (hdepth.trans_lt (by decide)) ?_
  rw [Decoder.json, s.toJson?_toJson h]

theorem readSpec_valueJson (h : s.Readable) :
    Envelope.readSpec s.kind s.valueJson.reread = .ok s.reread := by
  cases s with
  | pipe p =>
    have hp : p.reread.Readable := Pipe.Readable.reread h
    rw [valueJson, ← Pipe.toJson_reread, ← Pipe.toJson_reread]
    exact Envelope.readSpec_pipe hp.reread
  | view v =>
    rw [valueJson, v.reread_toJson]
    exact Envelope.readSpec_view h
  | rule r =>
    rw [valueJson, r.reread_sortedJson]
    exact Envelope.readSpec_rule h

theorem valueJson_ne_null (s : Spec) : s.valueJson ≠ .null ∧ s.valueJson.reread ≠ .null := by
  cases s <;> simp [valueJson, Pipe.toJson, View.toJson, Rule.sortedJson]

end Spec

/-! ## Envelopes -/

namespace Envelope

/-- A value that metadata may be written as. -/
structure Writes (metadata : Json) (m : Metadata) : Prop where
  readable : metadata.Readable
  depth : metadata.depth ≤ 2
  reread : metadata.reread = metadata
  decodes : Metadata.decoder .text (.ofJson metadata) = .ok m

def writtenJson (version : String) (kind : Kind) (metadata spec : Json) : Json :=
  .obj [("api_version", .str version), ("kind", .str kind.text), ("metadata", metadata),
    ("spec", spec)]

variable {version : String} {kind : Kind} {metadata spec j : Json} {m : Metadata} {r : Resource}

theorem Writes.readable_writtenJson (hm : Writes metadata m) (hspec : spec.Readable) :
    (writtenJson version kind metadata spec).Readable :=
  ⟨trivial, trivial, hm.readable, hspec, trivial⟩

theorem Writes.ofJsonAt_writtenJson (hm : Writes metadata m) :
    Document.ofJsonAt 0 (writtenJson version kind metadata spec).reread =
      .object [(some "api_version", .text (some version)), (some "kind", .text (some kind.text)),
        (some "metadata", .ofJson metadata), (some "spec", .ofJsonAt 1 spec.reread)] true := by
  have hmetadata : Document.ofJsonAt 1 metadata = .ofJson metadata :=
    Document.ofJsonAt_eq (by have := hm.depth; unfold Document.depthLimit; omega)
  have hfields : (writtenJson version kind metadata spec).reread = .obj [("api_version", .str version),
      ("kind", .str kind.text), ("metadata", metadata.reread), ("spec", spec.reread)] := by
    rw [writtenJson, Json.reread_obj]
    rfl
  rw [hfields, hm.reread, Document.ofJsonAt, Document.nested, if_pos (by decide)]
  simp only [Document.ofFieldsAt, Document.ofJsonAt, hmetadata]

theorem Writes.decoder_fields (hm : Writes metadata m) (d : Document) :
    decoder .text (.object [(some "api_version", .text (some version)),
      (some "kind", .text (some kind.text)), (some "metadata", .ofJson metadata),
      (some "spec", d)] true) =
        (Decoder.json d).map fun j => ⟨some version, kind.text, m, j⟩ := by
  have hmetadata := hm.decodes
  unfold decoder
  cases hd : Decoder.json d with
  | error fault =>
    simp [Decoder.record, Decoder.objectFields, layout, List.lookup, Decoder.once,
      Decoder.option, Decoder.string, hmetadata, hd, Except.map]
  | ok j =>
    simp [Decoder.record, Decoder.objectFields, layout, List.lookup, Decoder.once,
      Decoder.option, Decoder.string, hmetadata, hd, Except.map, Decoder.need]

/-- A written envelope is read when its spec is not nested too deeply. -/
theorem Writes.ofText_writtenJson (hm : Writes metadata m) (hspec : spec.Readable)
    (hvalue : (Document.ofJson spec.reread).toJson? = some j) {e : Envelope} :
    Decoder.ofText decoder (writtenJson version kind metadata spec).compact = .ok e ↔
      spec.depth < 127 ∧ e = ⟨some version, kind.text, m, j⟩ := by
  rw [Decoder.ofText_compact_eq_ok (hm.readable_writtenJson hspec), hm.ofJsonAt_writtenJson,
    hm.decoder_fields, Decoder.json]
  by_cases hdepth : spec.depth < 127
  · rw [Document.ofJsonAt_eq (by rw [Json.depth_reread]; unfold Document.depthLimit; omega), hvalue]
    simp [Except.map, hdepth, eq_comm]
  · cases hk : (Document.ofJsonAt 1 spec.reread).toJson? with
    | none => simp [Except.map, hdepth]
    | some k =>
      have hlimit := Document.depth_of_toJson? (by decide) hk
      rw [Json.depth_reread] at hlimit
      unfold Document.depthLimit at hlimit
      omega

theorem Writes.ofJsonText_writtenJson (hm : Writes metadata m) (version : String)
    (hspec : spec.Readable) (hvalue : (Document.ofJson spec.reread).toJson? = some j)
    (hnull : j ≠ .null) {s : Spec} (hread : readSpec kind j = .ok s) :
    Resource.ofJsonText (writtenJson version kind metadata spec).compact = .ok r ↔
      spec.depth < 127 ∧ r = ⟨version, { m with name := Key.lower m.name }, s⟩ := by
  have hparse : Kind.parse kind.text = .ok kind := by cases kind <;> rfl
  have hresource : toResource ⟨some version, kind.text, m, j⟩ =
      .ok ⟨version, { m with name := Key.lower m.name }, s⟩ := by
    simp only [toResource, hparse, hnull, hread, Result.ok_bind, ↓reduceIte]
    rfl
  simp only [Resource.ofJsonText, Result.bind_eq_ok, hm.ofText_writtenJson hspec hvalue]
  constructor
  · rintro ⟨_, ⟨hdepth, rfl⟩, h⟩
    cases hresource.symm.trans h
    exact ⟨hdepth, rfl⟩
  · rintro ⟨hdepth, rfl⟩
    exact ⟨_, ⟨hdepth, rfl⟩, hresource⟩

end Envelope

/-! ## Rows -/

namespace ResourceRow

variable {row : ResourceRow} {s : Spec}

def metadataJson (row : ResourceRow) : Json :=
  .obj [("description", (row.description.map Json.str).getD .null),
    ("labels", .arr (row.labels.map Json.str)), ("name", .str row.key.name)]

theorem readable_metadataJson (row : ResourceRow) : row.metadataJson.Readable := by
  have hlabels : Json.ReadableItems (row.labels.map Json.str) := by
    rw [Json.readableItems_iff, List.forall_mem_map]
    exact fun _ _ => trivial
  unfold metadataJson
  cases row.description <;> exact ⟨trivial, hlabels, trivial, trivial⟩

theorem depth_metadataJson (row : ResourceRow) : row.metadataJson.depth ≤ 2 := by
  have hlabels : Json.depthItems (row.labels.map Json.str) ≤ 0 := by
    rw [Json.depthItems_le, List.forall_mem_map]
    exact fun _ _ => Nat.le_refl 0
  unfold metadataJson
  cases row.description <;> (simp [Json.depth, Json.depthFields]; omega)

theorem writes_metadataJson (row : ResourceRow) :
    Envelope.Writes row.metadataJson ⟨row.key.name, row.description, row.labels⟩ where
  readable := row.readable_metadataJson
  depth := row.depth_metadataJson
  reread := by
    unfold metadataJson
    cases row.description with
    | none =>
      simp [Function.comp_def]
      rfl
    | some d => simp [Function.comp_def]
  decodes := by
    have hlabels : Decoder.list Decoder.string (.array (Document.ofItems (row.labels.map .str)) true) =
        .ok row.labels := Decoder.list_ofItems fun _ _ => rfl
    unfold metadataJson Metadata.decoder
    cases row.description <;>
      simp [Document.ofJson, Document.ofFields, Decoder.record, Decoder.objectFields, Metadata.layout,
        List.lookup, Decoder.once, Decoder.option, Decoder.string, hlabels, Except.map,
        Decoder.need]

/-- What a row whose text is that of a readable spec stands for, unless the envelope would nest the
spec too deeply. -/
theorem resource_eq_ok (hspec : row.spec = s.toJson.compact) (hkind : row.kind = s.kind)
    (hname : Key.validateName row.key.name = .ok ()) (hs : s.Readable) {r : Resource} :
    row.resource = .ok r ↔ s.valueJson.depth < 127 ∧
      r = ⟨row.version, ⟨row.key.name, row.description, row.labels⟩, s.reread⟩ := by
  obtain ⟨hreadable, hsorted, -⟩ := s.readable_valueJson hs
  have hvalue := Document.toJson?_ofJson (Json.sorted_reread hsorted)
  rw [resource, hspec, s.readJson hs, Result.ok_bind, toJson, hkind]
  have hread := row.writes_metadataJson.ofJsonText_writtenJson (r := r) row.version hreadable hvalue
    s.valueJson_ne_null.2 (s.readSpec_valueJson hs)
  rwa [Key.lower_of_validName hname] at hread

theorem resource_eq (hspec : row.spec = s.toJson.compact) (hkind : row.kind = s.kind)
    (hname : Key.validateName row.key.name = .ok ()) (hs : s.Readable)
    (hdepth : s.valueJson.depth < 127) :
    row.resource = .ok ⟨row.version, ⟨row.key.name, row.description, row.labels⟩, s.reread⟩ :=
  (resource_eq_ok hspec hkind hname hs).2 ⟨hdepth, rfl⟩

end ResourceRow
end PagePipes
