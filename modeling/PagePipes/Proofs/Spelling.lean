import Mathlib.Computability.Language
import PagePipes.Proofs.Resource.Decoded
import PagePipes.Proofs.Resource.Written

set_option autoImplicit false

/-!
# Spellings of keys

The written keys are a regular language: a name, and behind an at sign forty hexadecimal digits or
nothing. A text is read as a key just when it is in this language after its ASCII letters have been
lowered, and then it is a spelling of the key that is written as the lowered text.
-/
namespace PagePipes

open scoped Computability

/-! ## Classes of characters -/

namespace Spelling

variable {p q : Char → Prop} {cs : List Char}

/-- The texts of one character of a class. -/
def one (p : Char → Prop) : Language Char := {cs | ∃ c, p c ∧ cs = [c]}

/-- The texts of one character of a range. -/
def range (first last : Char) : Language Char := one fun c => first ≤ c ∧ c ≤ last

theorem mem_one {c : Char} : [c] ∈ one p ↔ p c :=
  ⟨fun ⟨_, hd, heq⟩ => List.singleton_inj.1 heq ▸ hd, fun h => ⟨c, h, rfl⟩⟩

theorem range_self (c : Char) : range c c = one (· = c) :=
  congrArg one (funext fun _ => propext ⟨fun h => le_antisymm h.2 h.1, fun h => ⟨h.ge, h.le⟩⟩)

theorem one_add_one : one p + one q = one fun c => p c ∨ q c := by
  ext cs
  rw [Language.mem_add]
  constructor
  · rintro (⟨c, hc, rfl⟩ | ⟨c, hc, rfl⟩)
    · exact ⟨c, .inl hc, rfl⟩
    · exact ⟨c, .inr hc, rfl⟩
  · rintro ⟨c, hc | hc, rfl⟩
    · exact .inl ⟨c, hc, rfl⟩
    · exact .inr ⟨c, hc, rfl⟩

/-- Texts of one character each are the characters of one text. -/
theorem forall_mem_one {parts : List (List Char)} :
    (∀ part ∈ parts, part ∈ one p) ↔ ∃ cs : List Char, parts = cs.map ([·]) ∧ ∀ c ∈ cs, p c := by
  constructor
  · intro h
    induction parts with
    | nil => exact ⟨[], rfl, by simp⟩
    | cons part parts ih =>
      obtain ⟨⟨c, hc, rfl⟩, hrest⟩ := List.forall_mem_cons.1 h
      obtain ⟨cs, rfl, hcs⟩ := ih hrest
      exact ⟨c :: cs, rfl, List.forall_mem_cons.2 ⟨hc, hcs⟩⟩
  · rintro ⟨cs, rfl, hcs⟩
    exact List.forall_mem_map.2 fun c hc => mem_one.2 (hcs c hc)

theorem flatten_map_one (cs : List Char) : (cs.map ([·])).flatten = cs := by
  rw [← List.flatMap_def, List.flatMap_singleton']

theorem mem_kstar_one : cs ∈ (one p)∗ ↔ ∀ c ∈ cs, p c := by
  rw [Language.mem_kstar]
  simp only [forall_mem_one]
  constructor
  · rintro ⟨_, rfl, cs, rfl, hcs⟩
    rwa [flatten_map_one]
  · exact fun hcs => ⟨_, (flatten_map_one cs).symm, cs, rfl, hcs⟩

theorem mem_pow_one {n : Nat} : cs ∈ one p ^ n ↔ cs.length = n ∧ ∀ c ∈ cs, p c := by
  rw [Language.mem_pow]
  simp only [forall_mem_one]
  constructor
  · rintro ⟨_, rfl, hlength, cs, rfl, hcs⟩
    rw [flatten_map_one]
    exact ⟨by rwa [List.length_map] at hlength, hcs⟩
  · rintro ⟨hlength, hcs⟩
    exact ⟨_, (flatten_map_one cs).symm, by rwa [List.length_map], cs, rfl, hcs⟩

end Spelling

namespace Key
open PagePipes.Text Spelling

variable {s : String} {k : Key}

/-! ## Names and digests -/

/-- `[a-z][a-z0-9-]*`. -/
def nameSpelling : Language Char :=
  range 'a' 'z' * (range 'a' 'z' + range '0' '9' + range '-' '-')∗

/-- `[0-9a-f]{40}`. -/
def digestSpelling : Language Char := (range '0' '9' + range 'a' 'f') ^ 40

/-- `[a-z][a-z0-9-]*(@[0-9a-f]{40})?`. -/
def spelling : Language Char := nameSpelling * (1 + range '@' '@' * digestSpelling)

theorem mem_nameSpelling : s.toList ∈ nameSpelling ↔ validateName s = .ok () := by
  have hrest : range 'a' 'z' + range '0' '9' + range '-' '-' = one (isNameChar · = true) := by
    rw [range_self]
    simp only [range, one_add_one, isNameChar, Bool.or_eq_true, decide_eq_true_eq, beq_iff_eq]
  rw [validateName_eq_ok, nameSpelling, hrest, Language.mem_mul]
  constructor
  · rintro ⟨_, ⟨c, hc, rfl⟩, rest, hchars, heq⟩
    exact ⟨c, rest, heq.symm, decide_eq_true hc, mem_kstar_one.1 hchars⟩
  · rintro ⟨c, rest, heq, hc, hchars⟩
    exact ⟨[c], mem_one.2 (of_decide_eq_true hc), rest, mem_kstar_one.2 hchars, heq.symm⟩

theorem mem_digestSpelling_iff {cs : List Char} :
    cs ∈ digestSpelling ↔ cs.length = 40 ∧ ∀ c ∈ cs, Hex.isLower c = true := by
  have hdigits : range '0' '9' + range 'a' 'f' = one (Hex.isLower · = true) := by
    simp only [range, one_add_one, Hex.isLower, Bool.or_eq_true, decide_eq_true_eq]
  rw [digestSpelling, hdigits, mem_pow_one]

theorem mem_digestSpelling : s.toList ∈ digestSpelling ↔ validateDigest s = .ok () := by
  rw [validateDigest_eq_ok, mem_digestSpelling_iff]
  refine and_congr_left fun hlower => ?_
  have hbytes := utf8ByteSize_of_isLower hlower
  rw [String.ofList_toList] at hbytes
  rw [hbytes, digestLength]

/-- The spellings in lower case are the texts of valid keys. -/
theorem mem_spelling : s.toList ∈ spelling ↔ ∃ k : Key, k.Valid ∧ k.text = s := by
  have hstring : ∀ cs : List Char, ∃ t : String, t.toList = cs := fun cs => ⟨_, String.toList_ofList⟩
  rw [spelling, Language.mem_mul]
  constructor
  · rintro ⟨cs, hname, rest, hrest, heq⟩
    obtain ⟨name, rfl⟩ := hstring cs
    have hname := mem_nameSpelling.1 hname
    obtain hrest | hrest := (Language.mem_add ..).1 hrest
    · refine ⟨bare name, ⟨hname, fun _ hd => by cases hd⟩, ?_⟩
      rw [(Language.mem_one _).1 hrest, List.append_nil] at heq
      exact String.toList_inj.1 heq
    · obtain ⟨_, ⟨c, hc, rfl⟩, ds, hdigest, rfl⟩ := Language.mem_mul.1 hrest
      obtain rfl : c = '@' := le_antisymm hc.2 hc.1
      obtain ⟨digest, rfl⟩ := hstring ds
      refine ⟨exact name digest, ⟨hname, fun _ hd => ?_⟩, String.toList_inj.1 ?_⟩
      · cases hd
        exact mem_digestSpelling.1 hdigest
      · simpa [text, exact] using heq
  · rintro ⟨⟨name, digest⟩, ⟨hname, hdigest⟩, rfl⟩
    refine ⟨name.toList, mem_nameSpelling.2 hname, ?_⟩
    cases digest with
    | none => exact ⟨[], .inl rfl, List.append_nil _⟩
    | some d =>
      refine ⟨'@' :: d.toList, .inr ?_, by simp [text]⟩
      exact ⟨['@'], mem_one.2 (by decide), d.toList, mem_digestSpelling.2 (hdigest d rfl), rfl⟩

/-! ## Reading in any case -/

theorem toLower_eq_at {c : Char} : c.toLower = '@' ↔ c = '@' := by
  constructor
  · intro h
    obtain hsame | hlater := toLower_eq_or_lt c
    · exact hsame.symm.trans h
    · exact absurd (h ▸ hlater) (by decide)
  · rintro rfl
    decide

theorem splitAt_lower (s : String) :
    splitAt (lower s) = ((splitAt s).map lower (Option.map lower)) := by
  have hat : (fun c : Char => decide (c ≠ '@')) ∘ Char.toLower = fun c => decide (c ≠ '@') :=
    funext fun c => decide_eq_decide.2 (not_congr toLower_eq_at)
  simp only [splitAt, lower, String.toList_ofList, List.takeWhile_map, List.dropWhile_map, hat]
  cases s.toList.dropWhile fun c => decide (c ≠ '@') <;>
    simp only [List.map_nil, List.map_cons, Prod.map_apply, Option.map_none, Option.map_some, lower,
      String.toList_ofList]

/-- The case of a text makes no difference to the key. -/
theorem parse_lower (s : String) : parse (lower s) = parse s := by
  rw [parse, splitAt_lower, parse]
  obtain ⟨name, _ | digest⟩ := splitAt s <;> simp [lower_lower]

/-- A text without an at sign is a name, and any other is split around its first one. -/
theorem splitAt_cases (s : String) : splitAt s = (s, none) ∨
    ∃ name digest, splitAt s = (name, some digest) ∧ s = name ++ "@" ++ digest := by
  have hjoin : s.toList.takeWhile (fun c => decide (c ≠ '@')) ++
      s.toList.dropWhile (fun c => decide (c ≠ '@')) = s.toList := List.takeWhile_append_dropWhile
  generalize hname : s.toList.takeWhile (fun c => decide (c ≠ '@')) = name at hjoin
  cases hrest : s.toList.dropWhile fun c => decide (c ≠ '@') with
  | nil =>
    rw [hrest, List.append_nil] at hjoin
    exact .inl (by simp only [splitAt, hrest, hname, hjoin, String.ofList_toList])
  | cons c rest =>
    have hat : c = '@' := by
      have hhead := List.head_dropWhile_not (fun c => decide (c ≠ '@')) (l := s.toList) (by rw [hrest]; simp)
      simpa only [hrest, List.head_cons, decide_eq_false_iff_not, not_not] using hhead
    refine .inr ⟨String.ofList name, String.ofList rest, by simp only [splitAt, hrest, hname], ?_⟩
    rw [hrest, hat] at hjoin
    rw [← String.toList_inj, ← hjoin]
    simp

theorem text_of_parse (h : parse s = .ok k) : k.text = lower s := by
  rw [parse] at h
  obtain hsplit | ⟨name, digest, hsplit, hs⟩ := splitAt_cases s <;> rw [hsplit] at h <;>
    obtain ⟨⟨⟩, -, h⟩ := Result.bind_eq_ok.1 h
  case inl =>
    cases Result.pure_eq_ok.1 h
    rfl
  case inr =>
    obtain ⟨⟨⟩, -, h⟩ := Result.bind_eq_ok.1 h
    cases Result.pure_eq_ok.1 h
    rw [hs, lower_append, lower_append]
    rfl

theorem parse_eq_ok : parse s = .ok k ↔ k.Valid ∧ k.text = lower s := by
  constructor
  · exact fun h => ⟨valid_of_parse h, text_of_parse h⟩
  · rintro ⟨hvalid, htext⟩
    rw [← parse_lower, ← htext]
    exact parse_text hvalid

theorem ofText_compact (h : k.Valid) : Decoder.ofText (fun _ => decoder) k.toJson.compact = .ok k := by
  have hreread : k.toJson.reread = k.toJson := by simp [toJson]
  refine Decoder.ofText_compact (by simp [toJson, Json.Readable]) (Nat.zero_lt_succ _) ?_
  rw [hreread]
  exact decoder_toJson h

/-- A text is read as a key just when it is a spelling once its ASCII letters are lowered. The key is
written as the lowered text, is read back from that and from its encoding, and is what the actions
refer to that are made for it. -/
theorem parse_accepts_spelling (s : String) :
    ((∃ k, parse s = .ok k) ↔ (lower s).toList ∈ spelling) ∧
    ∀ k, parse s = .ok k → k.text = lower s ∧ parse k.text = .ok k ∧
      Decoder.ofText (fun _ => decoder) k.toJson.compact = .ok k ∧
      Decoder.ofValue (fun _ => decoder) k.toJson = .ok k ∧
      (Action.pipe k).reference = .ok k ∧ ∀ scalar, (Action.exchange k scalar).reference = .ok k := by
  constructor
  · simp only [parse_eq_ok, mem_spelling]
  · intro k h
    obtain ⟨hvalid, htext⟩ := parse_eq_ok.1 h
    exact ⟨htext, parse_text hvalid, ofText_compact hvalid, Decoder.ofValue_eq_ok (decoder_toJson hvalid),
      Action.reference_pipe hvalid, fun _ => Action.reference_exchange hvalid⟩

example : parse "TITLE@DA39A3EE5E6B4B0D3255BFEF95601890AFD80709" =
    .ok (exact "title" "da39a3ee5e6b4b0d3255bfef95601890afd80709") := by rfl

-- The Kelvin sign is a capital k, but no ASCII letter.
example : (parse "\u212A").toOption = none := by rfl

end Key
end PagePipes
