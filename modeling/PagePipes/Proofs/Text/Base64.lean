import PagePipes.Proofs.Result
import PagePipes.Text.Base64

set_option autoImplicit false

/-!
# Decoding base64 undoes encoding it

Decoding is strict, so a text that is decoded is the one encoding of its bytes: every quad of
symbols gives back the three bytes that it was read into, and the padding of the last quad is the one
that its number of bytes asks for. Every encoding is decoded.
-/
namespace PagePipes.Text

/-! ## Bytes of texts -/

theorem toList_loop (bs : ByteArray) (i : Nat) (r : List UInt8) :
    ByteArray.toList.loop bs i r = r.reverse ++ bs.data.toList.drop i := by
  fun_induction ByteArray.toList.loop bs i r with
  | case1 i r h ih =>
    have hi : i < bs.data.toList.length := by simpa using h
    rw [ih, List.drop_eq_getElem_cons (l := bs.data.toList) hi]
    simp [ByteArray.get!, h]
  | case2 i r h =>
    rw [List.drop_eq_nil_of_le (by simpa using Nat.le_of_not_lt h)]
    simp

theorem toList_toUTF8 (s : String) : s.toUTF8.toList = s.toUTF8.data.toList := by
  simp [ByteArray.toList, toList_loop]

theorem eq_of_toUTF8 {chars : List Char} {s : String}
    (h : chars.flatMap String.utf8EncodeChar = s.toUTF8.toList) : String.ofList chars = s := by
  refine String.toByteArray_inj.1 (ByteArray.ext ?_)
  rw [String.toByteArray_ofList, List.utf8Encode, List.data_toByteArray, h, toList_toUTF8]
  rfl

theorem toUTF8_ofList (chars : List Char) :
    (String.ofList chars).toUTF8.toList = chars.flatMap String.utf8EncodeChar := by
  rw [toList_toUTF8]
  change (String.ofList chars).toByteArray.data.toList = _
  rw [String.toByteArray_ofList, List.utf8Encode, List.data_toByteArray]

namespace Base64

variable {a b c d : UInt8} {u v w x : Nat} {bs out : List UInt8}

/-! ## Symbols -/

theorem value?_eq_some (h : value? b = some v) :
    v < 64 ∧ String.utf8EncodeChar (symbol v) = [b] := by
  have hall : ∀ n < 256, (value? (UInt8.ofNat n)).all fun v =>
      decide (v < 64 ∧ String.utf8EncodeChar (symbol v) = [UInt8.ofNat n]) := by decide +kernel
  simpa [h] using hall b.toNat b.toNat_lt

theorem utf8_symbols {values : List Nat} (h : List.Forall₂ (fun b v => value? b = some v) bs values) :
    (values.map symbol).flatMap String.utf8EncodeChar = bs ∧ ∀ v ∈ values, v < 64 := by
  induction h with
  | nil => simp
  | cons hb _ ih =>
    obtain ⟨hsmall, hsymbol⟩ := value?_eq_some hb
    exact ⟨by simp [hsymbol, ih.1], List.forall_mem_cons.2 ⟨hsmall, ih.2⟩⟩

theorem symbolValue_eq_ok {offset : Nat} (h : symbolValue offset b = .ok v) : value? b = some v := by
  unfold symbolValue at h
  split at h
  · next hb =>
    cases h
    exact hb
  · cases h

/-! ## Quads -/

theorem toNat_byte {n : Nat} (h : n < 256) : (UInt8.ofNat n).toNat = n :=
  UInt8.toNat_ofNat_of_lt h

section Quads

variable (hu : u < 64) (hv : v < 64) (hw : w < 64) (hx : x < 64)

include hu hv

theorem encodeChars_one (h : v % 16 = 0) :
    encodeChars [UInt8.ofNat (u * 4 + v / 16)] = [symbol u, symbol v, '=', '='] := by
  have hbyte : (UInt8.ofNat (u * 4 + v / 16)).toNat = u * 4 + v / 16 :=
    toNat_byte (by omega)
  simp only [encodeChars, hbyte]
  congr <;> omega

include hw

theorem encodeChars_two (h : w % 4 = 0) :
    encodeChars [UInt8.ofNat (u * 4 + v / 16), UInt8.ofNat (v % 16 * 16 + w / 4)] =
      [symbol u, symbol v, symbol w, '='] := by
  have hfirst : (UInt8.ofNat (u * 4 + v / 16)).toNat = u * 4 + v / 16 :=
    toNat_byte (by omega)
  have hsecond : (UInt8.ofNat (v % 16 * 16 + w / 4)).toNat = v % 16 * 16 + w / 4 :=
    toNat_byte (by omega)
  simp only [encodeChars, hfirst, hsecond]
  congr <;> omega

include hx

theorem encodeChars_three :
    encodeChars ((Tail.bytes [u, v, w, x]).1 ++ out) =
      symbol u :: symbol v :: symbol w :: symbol x :: encodeChars out := by
  have hfirst : (UInt8.ofNat (u * 4 + v / 16)).toNat = u * 4 + v / 16 :=
    toNat_byte (by omega)
  have hsecond : (UInt8.ofNat (v % 16 * 16 + w / 4)).toNat = v % 16 * 16 + w / 4 :=
    toNat_byte (by omega)
  have hthird : (UInt8.ofNat (w % 4 * 64 + x)).toNat = w % 4 * 64 + x :=
    toNat_byte (by omega)
  simp only [Tail.bytes, List.cons_append, List.nil_append, encodeChars, hfirst, hsecond, hthird]
  congr <;> omega

end Quads

/-! ## The last quad -/

namespace Tail

variable {base i : Nat} {t s : Tail}

theorem read_padding (ht : t.firstPad.isSome = true) (h : t.read base i bs = .ok s) :
    bs = List.replicate bs.length 61 ∧ s.values = t.values ∧ s.pads = t.pads + bs.length := by
  induction bs generalizing i t with
  | nil =>
    cases h
    exact ⟨rfl, rfl, rfl⟩
  | cons b rest ih =>
    obtain ⟨t', hstep, hrest⟩ := Result.bind_eq_ok.1 h
    obtain ⟨first, hfirst⟩ := Option.isSome_iff_exists.1 ht
    unfold step at hstep
    split at hstep
    case isTrue hb =>
      split at hstep
      · cases hstep
      · cases hstep
        obtain ⟨hpadding, hvalues, hpads⟩ := ih (by simp) hrest
        refine ⟨?_, hvalues, ?_⟩
        · rw [List.length_cons, List.replicate_succ, ← hpadding, hb]
        · rw [hpads, List.length_cons, Nat.add_assoc, Nat.add_comm 1]
    case isFalse => simp [hfirst] at hstep

theorem read_eq_ok (ht : t.firstPad = none) (h : t.read base i bs = .ok s) :
    ∃ symbols values n, bs = symbols ++ List.replicate n 61 ∧
      List.Forall₂ (fun b v => value? b = some v) symbols values ∧ s.values = t.values ++ values ∧
      s.pads = t.pads + n := by
  induction bs generalizing i t with
  | nil =>
    cases h
    exact ⟨[], [], 0, rfl, .nil, (List.append_nil _).symm, rfl⟩
  | cons b rest ih =>
    obtain ⟨t', hstep, hrest⟩ := Result.bind_eq_ok.1 h
    unfold step at hstep
    split at hstep
    case isTrue hb =>
      split at hstep
      · cases hstep
      · cases hstep
        obtain ⟨hpadding, hvalues, hpads⟩ := read_padding (by simp) hrest
        refine ⟨[], [], rest.length + 1, ?_, .nil, by rw [hvalues, List.append_nil], ?_⟩
        · rw [List.nil_append, List.replicate_succ, ← hpadding, hb]
        · rw [hpads, Nat.add_assoc, Nat.add_comm 1]
    case isFalse =>
      rw [ht] at hstep
      cases hb : value? b with
      | none => simp [hb] at hstep
      | some v =>
        simp only [hb, Except.ok.injEq] at hstep
        subst hstep
        obtain ⟨symbols, values, n, rfl, hsymbols, hvalues, hpads⟩ := ih rfl hrest
        exact ⟨b :: symbols, v :: values, n, rfl, .cons hb hsymbols, by simp [hvalues], hpads⟩

end Tail

theorem utf8_padding (n : Nat) :
    (List.replicate n '=').flatMap String.utf8EncodeChar = List.replicate n 61 := by
  induction n with
  | zero => rfl
  | succ n ih =>
    rw [List.replicate_succ, List.replicate_succ, List.flatMap_cons, ih]
    rfl

/-- The values of a full quad that leaves no bits over are encoded as its symbols and padding. -/
theorem encodeChars_bytes {values : List Nat} {n : Nat} (hsmall : ∀ v ∈ values, v < 64)
    (htwo : ¬ values.length < 2) (hlength : values.length + n ≤ 4)
    (hfull : (n + values.length) % 4 = 0) (hleft : (Tail.bytes values).2 = 0) :
    encodeChars (Tail.bytes values).1 = values.map symbol ++ List.replicate n '=' := by
  obtain _ | ⟨u, _ | ⟨v, rest⟩⟩ := values
  · simp at htwo
  · simp at htwo
  obtain ⟨hu, hv, hrest⟩ : u < 64 ∧ v < 64 ∧ ∀ w ∈ rest, w < 64 := by simpa using hsmall
  simp only [List.length_cons] at hlength hfull
  obtain _ | ⟨w, _ | ⟨x, _ | ⟨y, rest⟩⟩⟩ := rest
  · obtain rfl : n = 2 := by simp only [List.length_nil] at hlength hfull; omega
    exact encodeChars_one hu hv hleft
  · obtain rfl : n = 1 := by simp only [List.length_cons, List.length_nil] at hlength hfull; omega
    exact encodeChars_two hu hv (hrest w (by simp)) hleft
  · obtain rfl : n = 0 := by simp only [List.length_cons, List.length_nil] at hlength hfull; omega
    exact encodeChars_three hu hv (hrest w (by simp)) (hrest x (by simp))
  · simp only [List.length_cons] at hlength
    omega

theorem encode_decodeTail {base : Nat} (hlength : bs.length ≤ 4) (h : decodeTail base bs = .ok out) :
    (encodeChars out).flatMap String.utf8EncodeChar = bs := by
  unfold decodeTail at h
  split at h
  case isTrue hempty =>
    cases Result.pure_eq_ok.1 h
    exact (List.isEmpty_iff.1 hempty).symm
  case isFalse =>
    obtain ⟨t, ht, hquad⟩ := Result.bind_eq_ok.1 h
    obtain ⟨symbols, values, n, rfl, hsymbols, hvalues, hpads⟩ := Tail.read_eq_ok rfl ht
    have hread : t.values = values := hvalues
    have hpadding : t.pads = n := hpads.trans (Nat.zero_add n)
    obtain ⟨hutf8, hsmall⟩ := utf8_symbols hsymbols
    rw [List.length_append, List.length_replicate, hsymbols.length_eq] at hlength
    simp only [hread, hpadding, Result.throw_bind, ne_eq, ite_not] at hquad
    have htwo : ¬ values.length < 2 := fun hshort => by simp [hshort] at hquad
    have hfull : (n + values.length) % 4 = 0 := by
      by_contra hfull
      simp [htwo, hfull] at hquad
    have hleft : (Tail.bytes values).2 = 0 := by
      by_contra hleft
      simp [htwo, hfull, hleft] at hquad
    simp only [htwo, hfull, hleft, ↓reduceIte, Result.pure_eq_ok] at hquad
    subst hquad
    rw [encodeChars_bytes hsmall htwo hlength hfull hleft, List.flatMap_append, hutf8, utf8_padding]

theorem encode_decodeFrom {base : Nat} (h : decodeFrom base bs = .ok out) :
    (encodeChars out).flatMap String.utf8EncodeChar = bs := by
  fun_induction decodeFrom base bs generalizing out with
  | case1 base a b c d e rest ih =>
    obtain ⟨u, hu, h⟩ := Result.bind_eq_ok.1 h
    obtain ⟨v, hv, h⟩ := Result.bind_eq_ok.1 h
    obtain ⟨w, hw, h⟩ := Result.bind_eq_ok.1 h
    obtain ⟨x, hx, h⟩ := Result.bind_eq_ok.1 h
    obtain ⟨more, hmore, h⟩ := Result.bind_eq_ok.1 h
    cases Result.pure_eq_ok.1 h
    obtain ⟨hu, ha⟩ := value?_eq_some (symbolValue_eq_ok hu)
    obtain ⟨hv, hb⟩ := value?_eq_some (symbolValue_eq_ok hv)
    obtain ⟨hw, hc⟩ := value?_eq_some (symbolValue_eq_ok hw)
    obtain ⟨hx, hd⟩ := value?_eq_some (symbolValue_eq_ok hx)
    rw [encodeChars_three hu hv hw hx]
    simp only [List.flatMap_cons, ha, hb, hc, hd, ih hmore]
    rfl
  | case2 base bs hquad =>
    refine encode_decodeTail ?_ h
    by_contra hlong
    obtain _ | ⟨a, _ | ⟨b, _ | ⟨c, _ | ⟨d, _ | ⟨e, rest⟩⟩⟩⟩⟩ := bs
    case cons.cons.cons.cons.cons => exact hquad a b c d e rest rfl
    all_goals simp at hlong

theorem encode_of_decode {s : String} (h : decode s = .ok out) : encode out = s := by
  refine eq_of_toUTF8 ?_
  simp only [decode] at h
  split at h
  · split at h
    · cases h
    · exact encode_decodeFrom h
  · next hnone =>
    cases h
    rw [List.getLast?_eq_none_iff] at hnone
    rw [hnone]
    rfl

/-! ## Encodings are decoded -/

theorem exists_byte (hv : v < 64) :
    ∃ b, String.utf8EncodeChar (symbol v) = [b] ∧ value? b = some v ∧ b ≠ 61 := by
  have hall : ∀ v < 64, (String.utf8EncodeChar (symbol v)).all fun b =>
      decide (String.utf8EncodeChar (symbol v) = [b] ∧ value? b = some v ∧ b ≠ 61) := by
    decide +kernel
  have h := hall v hv
  cases hbytes : String.utf8EncodeChar (symbol v) with
  | nil => exact absurd hbytes (by simp)
  | cons b rest =>
    rw [hbytes] at h
    exact ⟨b, by simpa using (List.all_eq_true.1 h b (List.mem_cons_self ..))⟩

section quads

variable {base : Nat} (ha : value? a = some u ∧ a ≠ 61) (hb : value? b = some v ∧ b ≠ 61)
  (hc : value? c = some w ∧ c ≠ 61) (hd : value? d = some x ∧ d ≠ 61)

include ha hb

theorem decodeTail_two (h : v % 16 = 0) :
    decodeTail base [a, b, 61, 61] = .ok [UInt8.ofNat (u * 4 + v / 16)] := by
  simp [decodeTail, Tail.read, Tail.step, Tail.empty, Tail.bytes, ha, hb, h]

include hc

theorem decodeTail_three (h : w % 4 = 0) :
    decodeTail base [a, b, c, 61] = .ok [UInt8.ofNat (u * 4 + v / 16), UInt8.ofNat (v % 16 * 16 + w / 4)] := by
  simp [decodeTail, Tail.read, Tail.step, Tail.empty, Tail.bytes, ha, hb, hc, h]

include hd

theorem decodeTail_four : decodeTail base [a, b, c, d] = .ok (Tail.bytes [u, v, w, x]).1 := by
  simp [decodeTail, Tail.read, Tail.step, Tail.empty, Tail.bytes, ha, hb, hc, hd]

end quads

theorem utf8_pad : String.utf8EncodeChar '=' = [61] := rfl

theorem symbolValue_of_value? {offset : Nat} (h : value? b = some v) : symbolValue offset b = .ok v := by
  simp [symbolValue, h]

/-- A last byte is two symbols and two padding bytes. -/
theorem exists_quad_one (a : UInt8) :
    ∃ p q, (encodeChars [a]).flatMap String.utf8EncodeChar = [p, q, 61, 61] ∧
      ∀ base, decodeTail base [p, q, 61, 61] = .ok [a] := by
  have ha := a.toNat_lt
  obtain ⟨p, hp, hpread⟩ := @exists_byte (a.toNat * 16 / 64) (by omega)
  obtain ⟨q, hq, hqread⟩ := @exists_byte (a.toNat * 16 % 64) (by omega)
  have hfirst : a.toNat * 16 / 64 * 4 + a.toNat * 16 % 64 / 16 = a.toNat := by omega
  refine ⟨p, q, by simp [encodeChars, hp, hq, utf8_pad], fun base => ?_⟩
  rw [decodeTail_two hpread hqread (by omega), hfirst, UInt8.ofNat_toNat]

/-- The last two bytes are three symbols and a padding byte. -/
theorem exists_quad_two (a b : UInt8) :
    ∃ p q r, (encodeChars [a, b]).flatMap String.utf8EncodeChar = [p, q, r, 61] ∧
      ∀ base, decodeTail base [p, q, r, 61] = .ok [a, b] := by
  have ha := a.toNat_lt
  have hb := b.toNat_lt
  obtain ⟨n, hn⟩ : ∃ n, n = (a.toNat * 256 + b.toNat) * 4 := ⟨_, rfl⟩
  obtain ⟨p, hp, hpread⟩ := @exists_byte (n / 4096) (by omega)
  obtain ⟨q, hq, hqread⟩ := @exists_byte (n / 64 % 64) (by omega)
  obtain ⟨r, hr, hrread⟩ := @exists_byte (n % 64) (by omega)
  have hfirst : n / 4096 * 4 + n / 64 % 64 / 16 = a.toNat := by omega
  have hsecond : n / 64 % 64 % 16 * 16 + n % 64 / 4 = b.toNat := by omega
  refine ⟨p, q, r, by simp [encodeChars, ← hn, hp, hq, hr, utf8_pad], fun base => ?_⟩
  rw [decodeTail_three hpread hqread hrread (by omega), hfirst, hsecond, UInt8.ofNat_toNat,
    UInt8.ofNat_toNat]

/-- Three bytes are four symbols, wherever they stand. -/
theorem exists_quad_three (a b c : UInt8) (rest : List UInt8) :
    ∃ p q r t, (encodeChars (a :: b :: c :: rest)).flatMap String.utf8EncodeChar =
        p :: q :: r :: t :: (encodeChars rest).flatMap String.utf8EncodeChar ∧
      (∀ base, decodeTail base [p, q, r, t] = .ok [a, b, c]) ∧
      ∀ base e more, decodeFrom base (p :: q :: r :: t :: e :: more) =
        (decodeFrom (base + 4) (e :: more)).map ([a, b, c] ++ ·) := by
  have ha := a.toNat_lt
  have hb := b.toNat_lt
  have hc := c.toNat_lt
  obtain ⟨n, hn⟩ : ∃ n, n = (a.toNat * 256 + b.toNat) * 256 + c.toNat := ⟨_, rfl⟩
  obtain ⟨p, hp, hpread⟩ := @exists_byte (n / 262144) (by omega)
  obtain ⟨q, hq, hqread⟩ := @exists_byte (n / 4096 % 64) (by omega)
  obtain ⟨r, hr, hrread⟩ := @exists_byte (n / 64 % 64) (by omega)
  obtain ⟨t, ht, htread⟩ := @exists_byte (n % 64) (by omega)
  have hquad : (Tail.bytes [n / 262144, n / 4096 % 64, n / 64 % 64, n % 64]).1 = [a, b, c] := by
    have hfirst : n / 262144 * 4 + n / 4096 % 64 / 16 = a.toNat := by omega
    have hsecond : n / 4096 % 64 % 16 * 16 + n / 64 % 64 / 4 = b.toNat := by omega
    have hthird : n / 64 % 64 % 4 * 64 + n % 64 = c.toNat := by omega
    simp only [Tail.bytes, hfirst, hsecond, hthird, UInt8.ofNat_toNat]
  refine ⟨p, q, r, t, by simp [encodeChars, ← hn, hp, hq, hr, ht], fun base => ?_, ?_⟩
  · rw [decodeTail_four hpread hqread hrread htread, hquad]
  · intro base e more
    simp only [decodeFrom, symbolValue_of_value? hpread.1, symbolValue_of_value? hqread.1,
      symbolValue_of_value? hrread.1, symbolValue_of_value? htread.1, Result.ok_bind, hquad]
    cases decodeFrom (base + 4) (e :: more) <;> rfl

/-- The bytes of an encoding are whole quads and are decoded. -/
theorem decodeFrom_encodeChars (bs : List UInt8) :
    ((encodeChars bs).flatMap String.utf8EncodeChar).length % 4 = 0 ∧
      ∀ base, decodeFrom base ((encodeChars bs).flatMap String.utf8EncodeChar) = .ok bs := by
  induction bs using encodeChars.induct with
  | case1 => exact ⟨rfl, fun _ => rfl⟩
  | case2 a =>
    obtain ⟨p, q, hbytes, hread⟩ := exists_quad_one a
    rw [hbytes]
    exact ⟨by simp, hread⟩
  | case3 a b =>
    obtain ⟨p, q, r, hbytes, hread⟩ := exists_quad_two a b
    rw [hbytes]
    exact ⟨by simp, hread⟩
  | case4 a b c rest ih =>
    obtain ⟨p, q, r, t, hbytes, hlast, hread⟩ := exists_quad_three a b c rest
    rw [hbytes]
    refine ⟨by simp only [List.length_cons]; omega, fun base => ?_⟩
    -- a quad with nothing behind it is read as the last one, though it has no padding
    cases hmore : (encodeChars rest).flatMap String.utf8EncodeChar with
    | nil =>
      have hempty := ih.2 base
      rw [hmore] at hempty
      obtain rfl : [] = rest := Except.ok.inj hempty
      exact hlast base
    | cons e more =>
      rw [hread, ← hmore, ih.2 (base + 4)]
      rfl

theorem decode_encode (bs : List UInt8) : decode (encode bs) = .ok bs := by
  obtain ⟨hquads, hdecode⟩ := decodeFrom_encodeChars bs
  unfold decode encode
  rw [toUTF8_ofList]
  dsimp only
  split
  · rw [if_neg (by omega)]
    exact hdecode 0
  · next hnone =>
    rw [List.getLast?_eq_none_iff] at hnone
    have h := hdecode 0
    rw [hnone] at h
    exact h

end Base64
end PagePipes.Text
