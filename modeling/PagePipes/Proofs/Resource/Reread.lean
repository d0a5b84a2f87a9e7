import PagePipes.Proofs.Resource.Decoded

set_option autoImplicit false

/-!
# Resources that were read are read back

The text of a resource that was read, compact or with line breaks, is that of an envelope again. It
is read as the same resource up to the floats in the actions of a pipe, each of which has been written
and read once more. Only what a file in YAML nests too deeply cannot be read back.
-/
namespace PagePipes

namespace Metadata

variable {m : Metadata}

theorem mem_fields {f : String × Json} (h : f ∈ ("name", Json.str m.name) ::
    Column.textField "description" m.description ++ Pipe.listField "labels" (m.labels.map Json.str)) :
    (∃ name t, f = (name, .str t)) ∨ f = ("labels", .arr (m.labels.map .str)) := by
  obtain hf | hf := List.mem_append.1 h
  · obtain rfl | hf := List.mem_cons.1 hf
    · exact .inl ⟨_, _, rfl⟩
    · obtain ⟨t, rfl⟩ := Json.mem_textField hf
      exact .inl ⟨_, t, rfl⟩
  · exact .inr (Json.mem_listField hf)

theorem writes_toJson (m : Metadata) : Envelope.Writes m.toJson m where
  readable := by
    rw [toJson, Json.Readable, Json.readableFields_iff]
    intro f hf
    obtain ⟨name, t, rfl⟩ | rfl := mem_fields hf
    · trivial
    · rw [Json.Readable, Json.readableItems_iff, List.forall_mem_map]
      exact fun _ _ => trivial
  depth := by
    refine Nat.add_le_add_right (Json.depthFields_le.2 fun f hf => ?_) 1
    obtain ⟨name, t, rfl⟩ | rfl := mem_fields hf
    · exact Nat.zero_le 1
    · refine Nat.add_le_add_right (Json.depthItems_le.2 ?_) 1
      rw [List.forall_mem_map]
      exact fun _ _ => Nat.le_refl 0
  reread := by simp [toJson, Function.comp_def]
  decodes := by
    obtain ⟨name, description, labels⟩ := m
    have hlabels : Decoder.list Decoder.string (.array (Document.ofItems (labels.map .str)) true) =
        .ok labels := Decoder.list_ofItems fun _ _ => rfl
    unfold toJson decoder
    cases description <;> cases labels <;>
      simp_all [Document.ofJson, Document.ofFields, Decoder.record, Decoder.objectFields, layout,
        List.lookup, Decoder.once, Decoder.option, Decoder.string, Except.map, Decoder.need,
        Column.textField, Pipe.listField]

end Metadata

/-! ## Pipes -/

/-- An action is read as it was written when every argument is. -/
theorem Action.reread_eq_self_iff {a : Action} :
    a.reread = a ↔ ∀ name v, a.get? name = some v → v.reread = v := by
  constructor
  · intro h name v hv
    have hreread := a.get?_reread (n := name)
    rw [h, hv] at hreread
    exact (Option.some.inj hreread).symm
  · intro h
    obtain ⟨arguments⟩ := a
    rw [reread, Action.mk.injEq]
    apply Std.ExtTreeMap.ext_getElem?
    intro name
    rw [Std.ExtTreeMap.getElem?_map]
    cases hv : arguments[name]? with
    | none => rfl
    | some v => rw [Option.map_some, h name v hv]

theorem Pipe.reread_eq_self_iff {p : Pipe} :
    p.reread = p ↔ ∀ a ∈ p.actions, ∀ name v, a.get? name = some v → v.reread = v := by
  obtain ⟨actions, point⟩ := p
  have hactions : actions.map Action.reread = actions ↔ ∀ a ∈ actions, a.reread = a := by
    simpa using @List.map_inj_left _ _ actions Action.reread id
  simp only [reread, Pipe.mk.injEq, and_true, hactions, Action.reread_eq_self_iff]

/-! ## Specs -/

namespace Spec

variable {s : Spec}

/-- What is read out of the text of a spec. -/
def readBack : Spec → Spec
  | .pipe p => .pipe p.reread
  | s => s

theorem readSpec_readBack (hread : s.AsRead) (h : s.Readable) :
    Envelope.readSpec s.kind s.valueJson = .ok s.readBack := by
  cases s with
  | pipe p =>
    rw [valueJson, ← Pipe.toJson_reread]
    exact Envelope.readSpec_pipe (Pipe.Readable.reread h)
  | view v => exact Envelope.readSpec_view h
  | rule x =>
    have hnormal : x.normalized = x := by rw [Rule.normalized, show x.predicate.normalized = _ from hread]
    have hx := Envelope.readSpec_rule h
    rwa [hnormal] at hx

end Spec

namespace Resource

variable {r q : Resource} {n : Nat}

/-- The compact text of a resource that was read is that of a resource again, unless its spec is
nested too deeply for the envelope. -/
theorem Decoded.ofJsonText_compact (h : r.Decoded n) :
    ofJsonText r.toJson.compact = .ok q ↔
      r.spec.toJson.depth < 127 ∧ q = { r with spec := r.spec.readBack } := by
  have hread := r.metadata.writes_toJson.ofJsonText_writtenJson (r := q) r.version
    (r.spec.readable_toJson h.readable).1 (r.spec.toJson?_toJson h.readable) r.spec.valueJson_ne_null.1
    (r.spec.readSpec_readBack h.asRead h.readable)
  rwa [show Key.lower r.metadata.name = r.metadata.name from h.lowered] at hread

theorem Decoded.ofJsonText_pretty (h : r.Decoded n) :
    ofJsonText r.toJson.pretty = ofJsonText r.toJson.compact := by
  have hreadable : r.toJson.Readable :=
    r.metadata.writes_toJson.readable_writtenJson (r.spec.readable_toJson h.readable).1
  rw [ofJsonText, ofJsonText, Decoder.ofText_pretty _ hreadable]

/-- A resource comes back as it was when every value in its actions does. -/
theorem Decoded.ofJsonText_eq_self_iff (h : r.Decoded n) :
    ofJsonText r.toJson.compact = .ok r ↔ ∀ p, r.spec = .pipe p → p.toJson.depth < 127 ∧
      ∀ a ∈ p.actions, ∀ name v, a.get? name = some v → v.reread = v := by
  rw [h.ofJsonText_compact]
  obtain ⟨version, metadata, spec⟩ := r
  cases spec with
  | pipe p =>
    have hself : p = p.reread ↔ p.reread = p := eq_comm
    simp only [Spec.toJson, mk.injEq, true_and, Spec.readBack, Spec.pipe.injEq, forall_eq', hself,
      Pipe.reread_eq_self_iff]
  | view v => simpa [Spec.readBack, Spec.toJson] using v.depth_toJson.trans_lt (by decide)
  | rule x => simpa [Spec.readBack, Spec.toJson] using x.depth_toJson.trans_lt (by decide)

theorem key_readBack_iff : ({ r with spec := r.spec.readBack } : Resource).key = r.key ↔
    ∀ p, r.spec = .pipe p → p.reread.digest = p.digest := by
  obtain ⟨version, metadata, spec⟩ := r
  cases spec with
  | pipe p => simp [key, Key.exact, Spec.readBack, Spec.digest, Pipe.digest, Spec.toJson, Resource.name]
  | view v => simp [Spec.readBack, key]
  | rule x => simp [Spec.readBack, key]

/-- A resource that was read out of a text, in JSON or in YAML, is written to texts that say the same
with and without line breaks. They are read as the resource with each float in the actions of a pipe
written and read once more, unless a file in YAML has nested the spec too deeply for that. So the
resource comes back as it was just when no value in its actions changes by that, and under its key
just when the digest of its pipe does not. -/
theorem text_reads_back_iff {text : String} (h : ofJsonText text = .ok r ∨ ofYamlText text = .ok r) :
    ofJsonText r.toJson.pretty = ofJsonText r.toJson.compact ∧
    (∀ q, ofJsonText r.toJson.compact = .ok q ↔
      r.spec.toJson.depth < 127 ∧ q = { r with spec := r.spec.readBack }) ∧
    (ofJsonText text = .ok r → r.spec.toJson.depth < 127) ∧
    (ofJsonText r.toJson.compact = .ok r ↔ ∀ p, r.spec = .pipe p → p.toJson.depth < 127 ∧
      ∀ a ∈ p.actions, ∀ name v, a.get? name = some v → v.reread = v) ∧
    ∀ q, ofJsonText r.toJson.compact = .ok q →
      (q.key = r.key ↔ ∀ p, r.spec = .pipe p → p.reread.digest = p.digest) := by
  obtain ⟨n, hr⟩ : ∃ n, r.Decoded n := h.elim (fun h => ⟨_, decoded_of_ofJsonText h⟩)
    fun h => ⟨_, decoded_of_ofYamlText h⟩
  refine ⟨hr.ofJsonText_pretty, fun q => hr.ofJsonText_compact, fun hjson => ?_,
    hr.ofJsonText_eq_self_iff, fun q hq => ?_⟩
  · exact Nat.lt_succ_of_le (decoded_of_ofJsonText hjson).depth
  · obtain ⟨-, rfl⟩ := hr.ofJsonText_compact.1 hq
    exact key_readBack_iff

/-- A pipe with a weight that lies near the middle of two floats. -/
def weighedTitle : String :=
  "\x7b\"kind\":\"pipe\",\"metadata\":\x7b\"name\":\"title\"\x7d,\"spec\":" ++
    "\x7b\"actions\":[\x7b\"action\":\"document\",\"weight\":92.560642292419238\x7d]\x7d\x7d"

theorem weighed_title_drifts : ∃ r q, ofJsonText weighedTitle = .ok r ∧
    ofJsonText r.toJson.compact = .ok q ∧ ofJsonText r.toJson.pretty = .ok q ∧ q.key ≠ r.key := by
  have hrun : (ofJsonText weighedTitle).toOption.any (fun r =>
      decide (r.spec.readBack.digest ≠ r.spec.digest)) = true := by
    decide +kernel
  obtain ⟨r, hr, hdigest⟩ := Result.exists_ok_of_any hrun
  obtain ⟨hpretty, hread, hdepth, -, -⟩ := text_reads_back_iff (.inl hr)
  have hq := (hread _).2 ⟨hdepth hr, rfl⟩
  refine ⟨r, _, hr, hq, hpretty.trans hq, fun hkey => ?_⟩
  exact of_decide_eq_true hdigest (Option.some.inj (congrArg Key.digest hkey))

end Resource
end PagePipes
