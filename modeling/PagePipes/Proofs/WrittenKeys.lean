import Mathlib.Data.Char
import PagePipes.Action
import PagePipes.Proofs.Lookup
import PagePipes.Proofs.Result

set_option autoImplicit false

/-!
# Keys as actions write them

A valid name or digest is not changed by lowering, the digest of any text is valid, and an action
whose name and digest are set to those of a valid qualified key refers to that key.
-/
namespace PagePipes

namespace Key
open PagePipes.Text

/-- A key whose name and digest are as a resource may have them. -/
structure Valid (k : Key) : Prop where
  name : validateName k.name = .ok ()
  digest : ∀ d, k.digest = some d → validateDigest d = .ok ()

theorem validateName_eq_ok {n : String} :
    validateName n = .ok () ↔ ∃ c rest, n.toList = c :: rest ∧ isNameStart c ∧
      ∀ d ∈ rest, isNameChar d := by
  unfold validateName nameFault?
  cases h : n.toList with
  | nil => simp
  | cons c rest =>
    by_cases hc : isNameStart c
    · have hrest : (rest.find? fun d => !isNameChar d) = none ↔ ∀ d ∈ rest, isNameChar d := by
        simp [List.find?_eq_none]
      cases hf : rest.find? fun d => !isNameChar d with
      | none => simp [hc, hf, ← hrest]
      | some d => simp [hc, hf, ← hrest]
    · simp [hc]

theorem validateDigest_eq_ok {d : String} :
    validateDigest d = .ok () ↔ d.utf8ByteSize = digestLength ∧ ∀ c ∈ d.toList, Hex.isLower c := by
  unfold validateDigest digestFault?
  by_cases hs : d.utf8ByteSize = digestLength
  · by_cases ha : d.toList.all Hex.isLower
    · simp only [hs, ha, ne_eq, not_true_eq_false, ↓reduceIte, true_and, true_iff]
      exact List.all_eq_true.1 ha
    · simp only [hs, ha, ne_eq, not_true_eq_false, ↓reduceIte, Bool.false_eq_true, reduceCtorEq,
        true_and, false_iff]
      exact fun h => ha (List.all_eq_true.2 h)
  · simp [hs]

theorem toLower_eq_of_lower {c : Char} (h : 'Z' < c ∨ c < 'A') : c.toLower = c := by
  have hn : ¬ (c.val ≥ 'A'.val ∧ c.val ≤ 'Z'.val) := by
    rintro ⟨ha, hz⟩
    rcases h with h | h
    · exact absurd hz (UInt32.not_le.2 h)
    · exact absurd ha (UInt32.not_le.2 h)
  exact dif_neg hn

theorem lower_eq_of_chars {s : String} (h : ∀ c ∈ s.toList, 'Z' < c ∨ c < 'A') :
    lower s = s := by
  have hmap : s.toList.map Char.toLower = s.toList := by
    rw [List.map_congr_left fun c hc => toLower_eq_of_lower (h c hc), List.map_id']
  rw [lower, hmap, String.ofList_toList]

theorem chars_of_validName {n : String} (h : validateName n = .ok ()) :
    ∀ c ∈ n.toList, 'Z' < c ∨ c < 'A' := by
  obtain ⟨first, rest, hn, hfirst, hrest⟩ := validateName_eq_ok.1 h
  intro c hc
  have hstart : isNameStart c ∨ isNameChar c := by
    rw [hn] at hc
    rcases List.mem_cons.1 hc with rfl | hc
    · exact .inl hfirst
    · exact .inr (hrest c hc)
  simp only [isNameStart, isNameChar, Bool.or_eq_true, decide_eq_true_eq, beq_iff_eq] at hstart
  rcases hstart with h | (h | h) | h
  · exact .inl (lt_of_lt_of_le (by decide) h.1)
  · exact .inl (lt_of_lt_of_le (by decide) h.1)
  · exact .inr (lt_of_le_of_lt h.2 (by decide))
  · exact .inr (by rw [h]; decide)

theorem lower_of_validName {n : String} (h : validateName n = .ok ()) : lower n = n :=
  lower_eq_of_chars (chars_of_validName h)

theorem lower_of_validDigest {d : String} (h : validateDigest d = .ok ()) : lower d = d := by
  refine lower_eq_of_chars fun c hc => ?_
  have hlower := (validateDigest_eq_ok.1 h).2 c hc
  simp only [Hex.isLower, Bool.or_eq_true, decide_eq_true_eq] at hlower
  rcases hlower with h | h
  · exact .inr (lt_of_le_of_lt h.2 (by decide))
  · exact .inl (lt_of_lt_of_le (by decide) h.1)

theorem isLower_digit {n : Nat} (h : n < 16) : Hex.isLower (Hex.digit n) := by
  have all : ∀ n < 16, Hex.isLower (Hex.digit n) := by decide
  exact all n h

theorem isLower_ofBytes {bytes : List UInt8} {c : Char} (h : c ∈ (Hex.ofBytes bytes).toList) :
    Hex.isLower c := by
  rw [Hex.ofBytes, String.toList_ofList, List.mem_flatMap] at h
  obtain ⟨b, -, hc⟩ := h
  have hb : b.toNat < 256 := b.toNat_lt
  rcases List.mem_pair.1 hc with rfl | rfl
  · exact isLower_digit (by omega)
  · exact isLower_digit (by omega)

theorem utf8ByteSize_of_isLower {cs : List Char} (h : ∀ c ∈ cs, Hex.isLower c) :
    (String.ofList cs).utf8ByteSize = cs.length := by
  induction cs with
  | nil => rfl
  | cons c cs ih =>
    have hc : c.utf8Size = 1 := by
      have hlower := h c (by simp)
      simp only [Hex.isLower, Bool.or_eq_true, decide_eq_true_eq] at hlower
      rw [Char.utf8Size_eq_one_iff]
      rcases hlower with h | h
      · exact UInt32.le_trans h.2 (by decide)
      · exact UInt32.le_trans h.2 (by decide)
    rw [String.ofList_cons, String.utf8ByteSize_append, String.utf8ByteSize_singleton, hc,
      ih fun d hd => h d (by simp [hd]), List.length_cons, Nat.add_comm]

theorem length_ofBytes (bytes : List UInt8) :
    (bytes.flatMap Hex.ofByte).length = 2 * bytes.length := by
  induction bytes with
  | nil => rfl
  | cons b bytes ih =>
    rw [List.flatMap_cons, List.length_append, Hex.ofByte_length, ih, List.length_cons]
    omega

theorem length_hash (message : ByteArray) : (Checksum.Sha1.hash message).length = 20 := rfl

theorem validateDigest_digestText (s : String) :
    validateDigest (Checksum.Sha1.digestText s) = .ok () := by
  refine validateDigest_eq_ok.2 ⟨?_, fun c => isLower_ofBytes⟩
  rw [Checksum.Sha1.digestText, Checksum.Sha1.digest, Hex.ofBytes, utf8ByteSize_of_isLower,
    length_ofBytes, length_hash]
  · rfl
  · intro c hc
    exact isLower_ofBytes (by rwa [Hex.ofBytes, String.toList_ofList])

end Key

namespace Action

variable {a : Action} {k : Key}

@[simp] theorem get?_set {n m : String} {v : Json} :
    (a.set n v).get? m = if n = m then some v else a.get? m := by
  simp [get?, set, Std.ExtTreeMap.getElem?_insert]

@[simp] theorem string?_setString {n m s : String} :
    (a.setString n s).string? m = if n = m then some s else a.string? m := by
  unfold string? setString
  by_cases h : n = m <;> simp [h]

theorem string?_setKey {m : String} (hn : m ≠ "name") (hd : m ≠ "digest") :
    (a.setKey k).string? m = a.string? m := by
  unfold setKey
  cases k.digest with
  | none => simp [Ne.symm hn]
  | some d => simp [Ne.symm hn, Ne.symm hd]

@[simp] theorem is_setKey {kind : ActionKind} : (a.setKey k).is kind = a.is kind := by
  rw [is, is, string?_setKey (by decide) (by decide)]

@[simp] theorem string?_name_setKey : (a.setKey k).string? "name" = some k.name := by
  unfold setKey
  cases k.digest <;> simp

@[simp] theorem string?_digest_setKey :
    (a.setKey k).string? "digest" = k.digest.or (a.string? "digest") := by
  unfold setKey
  cases k.digest <;> simp

@[simp] theorem string?_digest_ofKind (kind : ActionKind) : (ofKind kind).string? "digest" = none := by
  simp [ofKind, ofFields, string?, get?, tag]

theorem reference_of_strings (hname : a.string? "name" = some k.name) (hdigest : a.string? "digest" = k.digest)
    (hv : k.Valid) : a.reference = .ok k := by
  obtain ⟨n, _ | d⟩ := k
  · simp only [reference, hname, hdigest, Key.lower_of_validName hv.name, hv.name]
    rfl
  · have hd := hv.digest d rfl
    have hne : d ≠ "" := by
      rintro rfl
      exact absurd (Key.validateDigest_eq_ok.1 hd).1 (by decide)
    simp only [reference, hname, hdigest, Key.lower_of_validName hv.name, hv.name,
      Key.lower_of_validDigest hd, hd, hne, ↓reduceIte]
    rfl

theorem reference_setKey (hq : k.isQualified) (hv : k.Valid) : (a.setKey k).reference = .ok k := by
  refine reference_of_strings string?_name_setKey ?_ hv
  rw [string?_digest_setKey, Option.or_of_isSome hq]

theorem reference_pipe (hv : k.Valid) : (pipe k).reference = .ok k :=
  reference_of_strings string?_name_setKey (by simp [pipe]) hv

theorem is_exchange {scalar : Scalar} : (exchange k scalar).is .exchange = true := by
  rw [exchange, is, string?_setString, if_neg (by decide), string?_setKey (by decide) (by decide)]
  decide

theorem reference_exchange {scalar : Scalar} (hv : k.Valid) : (exchange k scalar).reference = .ok k :=
  reference_of_strings (by simp [exchange]) (by simp [exchange]) hv

end Action
end PagePipes
